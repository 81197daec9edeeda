import Jterm.Ssh.Shell

/-!
When data waits with no one to read it. queue_read does not look at what is there already; a run of
on_recv gives on all data unless one of its reads is held up.
-/
namespace Jterm.Ssh

open Runs

/-- Behind queue_read, everything received has been given to webvterm_recv. -/
def AllShown (s : Shell) : Prop := s.phase = .reading → s.shown = s.received

/-- No data is there when getshell finds its reply, and no webssh2_read that data waits for is
held up. -/
def ShownAtOnce (s : Shell) : ShellEvent → Prop
  | .timer poll =>
    s.phase = .getshell → (s.request s.processState poll).1 = .success → s.received = []
  | .message ms reads =>
    s.phase = .reading → ∀ i, 1024 * i < (dataOf ms).length → reads.blocked.getD i false = false
  | .otherReads _ => True

/-- Data is given on in order or waits; none is given on before queue_read. -/
structure KeptInv (s : Shell) : Prop where
  kept : s.shown ++ s.waiting = s.received
  unshown : s.phase ≠ .reading → s.shown = []

theorem dataOf_append (ms ns : List ChannelMessage) : dataOf (ms ++ ns) = dataOf ms ++ dataOf ns :=
  List.flatMap_append

/-- What comes first of packets without data has none. -/
theorem dataOf_take {ms : List ChannelMessage} (h : dataOf ms = []) (n : ℕ) :
    dataOf (ms.take n) = [] := by
  have hsplit := dataOf_append (ms.take n) (ms.drop n)
  rw [List.take_append_drop, h] at hsplit
  exact (List.append_eq_nil_iff.mp hsplit.symm).1

theorem dataOf_erase (ms : List ChannelMessage) (success : Bool) :
    dataOf (ms.erase (.reply success)) = dataOf ms := by
  induction ms with
  | nil => rfl
  | cons m ms ih =>
    by_cases hm : m = .reply success
    · subst hm
      rw [List.erase_cons_head]
      rfl
    · rw [List.erase_cons_tail (by simpa using hm)]
      change m.bytes ++ dataOf _ = m.bytes ++ dataOf ms
      rw [ih]

namespace Shell

variable {s t u : Shell}

/-- What is taken is the front of the data, what is left is the rest. -/
theorem takeData_spec (n : ℕ) (ms : List ChannelMessage) :
    (takeData n ms).1 = (dataOf ms).take n ∧ dataOf (takeData n ms).2 = (dataOf ms).drop n := by
  fun_induction takeData n ms with
  | case1 n => simp [dataOf]
  | case2 ms hne => simp
  | case3 n bytes rest hfits taken left heq ih =>
    rw [heq] at ih
    dsimp only at ih ⊢
    change _ = (bytes ++ dataOf rest).take (n + 1) ∧ _ = (bytes ++ dataOf rest).drop (n + 1)
    rw [List.take_append, List.drop_append, List.take_of_length_le hfits,
      List.drop_eq_nil_of_le hfits, ih.1, ih.2]
    exact ⟨rfl, rfl⟩
  | case4 n bytes rest hfits =>
    change _ = (bytes ++ dataOf rest).take (n + 1) ∧
      bytes.drop (n + 1) ++ dataOf rest = (bytes ++ dataOf rest).drop (n + 1)
    rw [List.take_append_of_le_length (by omega), List.drop_append_of_le_length (by omega)]
    exact ⟨rfl, rfl⟩
  | case5 n m rest hne taken left heq ih =>
    rw [heq] at ih
    have hm : m.bytes = [] := by
      cases m with
      | data bytes => exact absurd rfl (hne bytes)
      | _ => rfl
    have hdata : ∀ ms, dataOf (m :: ms) = dataOf ms := by
      intro ms
      change m.bytes ++ dataOf ms = dataOf ms
      rw [hm, List.nil_append]
    dsimp only at ih ⊢
    rw [hdata, hdata]
    exact ih

/-- From `s` to `t` data is given on or waits where it was behind. -/
structure Passes (s t : Shell) : Prop where
  phase : t.phase = s.phase
  received : t.received = s.received
  data : t.shown ++ t.waiting = s.shown ++ s.waiting
  shown : s.shown <+: t.shown

theorem Passes.refl (s : Shell) : Passes s s := ⟨rfl, rfl, rfl, List.prefix_rfl⟩

theorem Passes.trans (hst : Passes s t) (htu : Passes t u) : Passes s u :=
  ⟨htu.phase.trans hst.phase, htu.received.trans hst.received, htu.data.trans hst.data,
    hst.shown.trans htu.shown⟩

theorem readToReply_data (n : ℕ) (incoming packets : List ChannelMessage) :
    dataOf (readToReply n incoming packets).2.2 ++ dataOf (readToReply n incoming packets).2.1 =
      dataOf packets ++ dataOf incoming := by
  fun_induction readToReply n incoming packets with
  | case1 incoming packets => rfl
  | case2 n packets hn => rfl
  | case3 n success rest packets => rfl
  | case4 n m rest packets hm ih =>
    rw [ih, dataOf_append, List.append_assoc]
    simp [dataOf]

/-- A request takes a reply and leaves the data. -/
theorem request_passes (s : Shell) (state : RequestState) (poll : Poll) :
    Passes s (s.request state poll).2.2 ∧ (s.request state poll).2.2.shown = s.shown ∧
      (s.request state poll).2.2.c = s.c := by
  have hawait : ∀ resumed, Passes s (s.awaitReply resumed poll).2.2 ∧
      (s.awaitReply resumed poll).2.2.shown = s.shown ∧
        (s.awaitReply resumed poll).2.2.c = s.c := by
    intro resumed
    unfold awaitReply
    cases replyIn s.packets with
    | some success =>
      refine ⟨⟨rfl, rfl, ?_, List.prefix_rfl⟩, rfl, rfl⟩
      change s.shown ++ (dataOf (s.packets.erase _) ++ dataOf s.incoming) = _
      rw [dataOf_erase]
      rfl
    | none =>
      have hdata := readToReply_data poll.reads s.incoming s.packets
      dsimp only
      generalize readToReply poll.reads s.incoming s.packets = result at hdata
      obtain ⟨found, incoming, packets⟩ := result
      have hpasses : Passes s { s with incoming := incoming, packets := packets } :=
        ⟨rfl, rfl, congrArg (s.shown ++ ·) hdata, List.prefix_rfl⟩
      cases found with
      | some success => exact ⟨hpasses, rfl, rfl⟩
      | none =>
        dsimp only
        split
        · exact ⟨hpasses, rfl, rfl⟩
        · exact ⟨hpasses, rfl, rfl⟩
  unfold request
  split
  · exact hawait true
  · split
    · exact ⟨.refl s, rfl, rfl⟩
    · exact hawait false

section RecvLoop
variable {read : Shell → Shell}

theorem webssh2Read_passes (hread : ∀ s, Passes s (read s)) (blocked : Bool) (s : Shell) :
    let result := s.webssh2Read read blocked
    Passes s { result.2 with shown := result.2.shown ++ result.1 } := by
  unfold webssh2Read
  cases blocked with
  | true =>
    refine ⟨rfl, rfl, ?_, List.prefix_append _ _⟩
    change (s.shown ++ []) ++ s.waiting = _
    rw [List.append_nil]
  | false =>
    obtain ⟨htaken, hleft⟩ := takeData_spec 1024 (read s).packets
    obtain ⟨hphase, hreceived, hdata, hshown⟩ := hread s
    refine ⟨hphase, hreceived, ?_, hshown.trans (List.prefix_append _ _)⟩
    rw [← hdata]
    change ((read s).shown ++ (takeData 1024 (read s).packets).1) ++
      (dataOf (takeData 1024 (read s).packets).2 ++ dataOf (read s).incoming) =
        (read s).shown ++ (dataOf (read s).packets ++ dataOf (read s).incoming)
    rw [htaken, hleft, List.append_assoc, ← List.append_assoc (List.take _ _),
      List.take_append_drop]

theorem webssh2Read_grows (hread : ∀ s, Passes s (read s)) (blocked : Bool) (s : Shell) :
    s.shown <+: (s.webssh2Read read blocked).2.shown := by
  unfold webssh2Read
  cases blocked with
  | true => exact List.prefix_rfl
  | false => exact (hread s).shown

theorem recvLoop_passes (hread : ∀ s, Passes s (read s)) (n : ℕ) (blocked : List Bool) (s : Shell) :
    Passes s (s.recvLoop read n blocked) := by
  induction n generalizing blocked s with
  | zero => exact .refl s
  | succ n ih =>
    have hfirst := webssh2Read_passes hread (blocked.headD false) s
    unfold recvLoop
    dsimp only at hfirst ⊢
    generalize s.webssh2Read read (blocked.headD false) = result at hfirst
    obtain ⟨bytes, next⟩ := result
    by_cases hbytes : bytes = []
    · rw [if_pos hbytes]
      rw [hbytes, List.append_nil] at hfirst
      exact hfirst
    · rw [if_neg hbytes]
      exact hfirst.trans (ih blocked.tail _)

/-- One read for each byte that waits and a last one are enough. -/
theorem recvLoop_enough (hread : ∀ s, Passes s (read s)) (m n : ℕ) (blocked : List Bool) (s : Shell)
    (hm : s.waiting.length < m) (hn : s.waiting.length < n) :
    s.recvLoop read m blocked = s.recvLoop read n blocked := by
  induction m generalizing n blocked s with
  | zero => omega
  | succ m ih =>
    obtain ⟨n, rfl⟩ : ∃ k, n = k + 1 := ⟨n - 1, by omega⟩
    have hfirst := webssh2Read_passes hread (blocked.headD false) s
    have hgrows := webssh2Read_grows hread (blocked.headD false) s
    unfold recvLoop
    dsimp only at hfirst ⊢
    generalize s.webssh2Read read (blocked.headD false) = result at hfirst hgrows
    obtain ⟨bytes, next⟩ := result
    dsimp only at hfirst hgrows ⊢
    by_cases hbytes : bytes = []
    · rw [if_pos hbytes, if_pos hbytes]
    · rw [if_neg hbytes, if_neg hbytes]
      have hless : ({ next with shown := next.shown ++ bytes } : Shell).waiting.length <
          s.waiting.length := by
        have hdata := congrArg List.length hfirst.data
        have hshown : s.shown.length ≤ next.shown.length := hgrows.length_le
        have hpos := List.length_pos_iff.mpr hbytes
        simp only [List.length_append] at hdata
        omega
      exact ih n blocked.tail _ (by omega) (by omega)

/-- Where the first read is held up, only what is empty has been taken. -/
theorem nil_iff_of_blocked (data : List UInt8) {blocked : List Bool}
    (hblocked : blocked.headD false = true) :
    data = [] ↔ ∀ i, 1024 * i < data.length → blocked.getD i false = false := by
  have hhead : blocked.getD 0 false = true := by
    cases blocked with
    | nil => exact hblocked
    | cons b rest => exact hblocked
  constructor
  · rintro rfl i hi
    exact absurd hi (Nat.not_lt_zero _)
  · intro hall
    by_contra hne
    have hpos := List.length_pos_iff.mpr hne
    have hfalse := hall 0 (by omega)
    rw [hhead] at hfalse
    exact Bool.noConfusion hfalse

/-- Where nothing is left to receive, the loop takes 1024 bytes at a time until a read is held up. -/
theorem recvLoop_empties (read : Shell → Shell) {incoming : List ChannelMessage}
    (hread : ∀ t : Shell, t.incoming = incoming → read t = t) (n : ℕ) (blocked : List Bool)
    (hs : s.incoming = incoming) (hn : (dataOf s.packets).length < n) :
    (s.recvLoop read n blocked).incoming = incoming ∧
      (dataOf (s.recvLoop read n blocked).packets = [] ↔
        ∀ i, 1024 * i < (dataOf s.packets).length → blocked.getD i false = false) := by
  induction n generalizing blocked s with
  | zero => omega
  | succ n ih =>
    obtain ⟨htaken, hleft⟩ := takeData_spec 1024 s.packets
    unfold recvLoop webssh2Read
    rw [hread s hs]
    cases hblocked : blocked.headD false with
    | true =>
      exact ⟨hs, nil_iff_of_blocked _ hblocked⟩
    | false =>
      dsimp only
      rw [if_neg Bool.false_ne_true]
      by_cases hnil : (takeData 1024 s.packets).1 = []
      · rw [if_pos hnil]
        have hdata : dataOf s.packets = [] := by
          rw [htaken, List.take_eq_nil_iff] at hnil
          exact hnil.resolve_left (by omega)
        refine ⟨hs, ?_⟩
        rw [hleft, hdata]
        simp
      · rw [if_neg hnil]
        have hlength : (dataOf (takeData 1024 s.packets).2).length =
            (dataOf s.packets).length - 1024 := by
          rw [hleft, List.length_drop]
        have hpos : 0 < (dataOf s.packets).length := by
          rw [htaken] at hnil
          by_contra hzero
          have hempty := List.length_eq_zero_iff.mp (Nat.eq_zero_of_not_pos hzero)
          rw [hempty] at hnil
          exact hnil rfl
        obtain ⟨hincoming, hiff⟩ := ih blocked.tail
          (s := { s with
            packets := (takeData 1024 s.packets).2
            shown := s.shown ++ (takeData 1024 s.packets).1 }) hs (by
              dsimp only
              omega)
        refine ⟨hincoming, hiff.trans ?_⟩
        dsimp only
        rw [hlength]
        constructor
        · intro hall i hi
          cases i with
          | zero =>
            cases blocked with
            | nil => rfl
            | cons b rest => exact hblocked
          | succ i =>
            have hlater := hall i (by omega)
            cases blocked with
            | nil => rfl
            | cons b rest => exact hlater
        · intro hall i hi
          have hlater := hall (i + 1) (by omega)
          cases blocked with
          | nil => rfl
          | cons b rest => exact hlater

end RecvLoop

theorem transportRead_passes (reads : Reads) (s : Shell) : Passes s (s.transportRead reads) := by
  unfold transportRead
  split
  · exact .refl s
  · have hsplit : Passes s { s with
        packets := s.packets ++ s.incoming.take reads.buffered
        incoming := s.incoming.drop reads.buffered } := by
      refine ⟨rfl, rfl, ?_, List.prefix_rfl⟩
      change s.shown ++ (dataOf (s.packets ++ _) ++ dataOf _) = _
      rw [dataOf_append, List.append_assoc, ← dataOf_append, List.take_append_drop]
      rfl
    refine (hsplit.trans (recvLoop_passes Passes.refl _ reads.nested _)).trans
      ⟨rfl, rfl, ?_, List.prefix_rfl⟩
    change _ ++ (dataOf (_ ++ _) ++ dataOf []) = _
    rw [dataOf_append]
    exact congrArg _ (List.append_nil _)

/-- A run of on_recv that has nothing to receive and no data in the brigade. -/
theorem onRecv_idle (nested : List Bool) (hpackets : dataOf s.packets = []) :
    (s.onRecv id nested).incoming = s.incoming ∧ dataOf (s.onRecv id nested).packets = [] := by
  have hfuel : (dataOf s.packets).length < s.waiting.length + 1 := by
    rw [hpackets]
    exact Nat.succ_pos _
  obtain ⟨hincoming, hempty⟩ := recvLoop_empties id (fun _ _ => rfl) _ nested rfl hfuel
  refine ⟨hincoming, hempty.mpr fun i hi => ?_⟩
  rw [hpackets] at hi
  exact absurd hi (Nat.not_lt_zero _)

/-- As long as what is buffered holds no data, the run of on_recv inside the recv finds none, and
all that has arrived comes into the brigade. -/
theorem transportRead_quiet {reads : Reads} (hpackets : dataOf s.packets = [])
    (hbuffered : dataOf (s.incoming.take reads.buffered) = []) :
    (s.transportRead reads).incoming = [] ∧
      dataOf (s.transportRead reads).packets = dataOf s.incoming := by
  unfold transportRead
  by_cases hincoming : s.incoming = []
  · rw [if_pos hincoming]
    refine ⟨hincoming, ?_⟩
    rw [hpackets, hincoming]
    rfl
  · rw [if_neg hincoming]
    refine ⟨rfl, ?_⟩
    have hnone : dataOf (s.packets ++ s.incoming.take reads.buffered) = [] := by
      rw [dataOf_append, hpackets, hbuffered, List.append_nil]
    have hall := dataOf_append (s.incoming.take reads.buffered) (s.incoming.drop reads.buffered)
    rw [List.take_append_drop, hbuffered, List.nil_append] at hall
    obtain ⟨hrest, hempty⟩ := onRecv_idle reads.nested (s := { s with
      packets := s.packets ++ s.incoming.take reads.buffered
      incoming := s.incoming.drop reads.buffered }) hnone
    dsimp only at hrest hempty ⊢
    rw [dataOf_append, hempty, hrest, hall]
    rfl

/-- on_recv behind a message, with nothing waiting from before. -/
theorem onRecv_empties (reads : Reads) (blocked : List Bool) (hpackets : dataOf s.packets = [])
    (hbuffered : dataOf (s.incoming.take reads.buffered) = []) :
    (s.onRecv (transportRead reads) blocked).waiting = [] ↔
      ∀ i, 1024 * i < (dataOf s.incoming).length → blocked.getD i false = false := by
  obtain ⟨hincoming, hdata⟩ := transportRead_quiet hpackets hbuffered
  have hwaiting : s.waiting = dataOf s.incoming := by
    unfold waiting
    rw [hpackets, List.nil_append]
  have hsettled : ∀ t : Shell, t.incoming = [] → transportRead reads t = t := fun t ht => if_pos ht
  unfold onRecv
  cases hblocked : blocked.headD false with
  | true =>
    have hsame : s.recvLoop (transportRead reads) (s.waiting.length + 1) blocked = s := by
      unfold recvLoop webssh2Read
      rw [hblocked]
      rfl
    rw [hsame, hwaiting]
    exact nil_iff_of_blocked _ hblocked
  | false =>
    have hread : s.webssh2Read (transportRead reads) false =
        (s.transportRead reads).webssh2Read (transportRead reads) false := by
      simp only [webssh2Read, Bool.false_eq_true, if_false, hsettled _ hincoming]
    have hfirst : s.recvLoop (transportRead reads) (s.waiting.length + 1) blocked =
        (s.transportRead reads).recvLoop (transportRead reads) (s.waiting.length + 1) blocked := by
      simp only [recvLoop, hblocked, hread]
    have hfuel : (dataOf (s.transportRead reads).packets).length < s.waiting.length + 1 := by
      rw [hdata, hwaiting]
      omega
    obtain ⟨hnone, hiff⟩ := recvLoop_empties (transportRead reads) hsettled _ blocked hincoming hfuel
    rw [hdata] at hiff
    rw [hfirst, ← hiff]
    change dataOf _ ++ dataOf (recvLoop _ (s.waiting.length + 1) _ _).incoming = [] ↔ _
    rw [hnone]
    exact Eq.congr_left (List.append_nil _)

end Shell

variable {s : Shell}

/-- What the start-up's poll leaves. -/
theorem KeptInv.polled (h : KeptInv s) (hphase : s.phase ≠ .reading) {t : Shell}
    (ht : Shell.Passes s t) (hshown : t.shown = s.shown) :
    t.shown = [] ∧ t.waiting = s.received ∧ t.received = s.received := by
  have hnone := h.unshown hphase
  have hdata := ht.data.trans h.kept
  rw [hshown, hnone, List.nil_append] at hdata
  exact ⟨hshown.trans hnone, hdata, ht.received⟩

theorem shellStep_kept (s : Shell) (e : ShellEvent) (h : KeptInv s) : KeptInv (shellStep s e) := by
  have hpasses : ∀ {t : Shell}, Shell.Passes s t → (t.phase ≠ .reading → t.shown = []) →
      KeptInv t := by
    intro t ht hnone
    refine ⟨?_, hnone⟩
    rw [ht.data, ht.received]
    exact h.kept
  cases e with
  | timer poll =>
    have hstartup : s.phase ≠ .reading → ∀ state, (s.request state poll).2.2.shown = [] ∧
        (s.request state poll).2.2.shown ++ (s.request state poll).2.2.waiting =
          (s.request state poll).2.2.received := by
      intro hphase state
      obtain ⟨hrequest, hsame, -⟩ := s.request_passes state poll
      refine ⟨hsame.trans (h.unshown hphase), ?_⟩
      rw [hrequest.data, hrequest.received]
      exact h.kept
    unfold shellStep
    cases hphase : s.phase with
    | setenv =>
      obtain ⟨hnone, hkept⟩ := hstartup (by simp [hphase]) s.setenvState
      exact ⟨hkept, fun _ => hnone⟩
    | setterm =>
      obtain ⟨hnone, hkept⟩ := hstartup (by simp [hphase]) s.reqPtyState
      exact ⟨hkept, fun _ => hnone⟩
    | getshell =>
      obtain ⟨hnone, hkept⟩ := hstartup (by simp [hphase]) s.processState
      dsimp only
      unfold Shell.queueGetshell
      dsimp only
      split_ifs
      · exact ⟨hkept, fun _ => hnone⟩
      · exact ⟨hkept, fun _ => hnone⟩
      · exact ⟨hkept, fun _ => hnone⟩
    | reading => exact h
    | stopped => exact h
  | message ms reads =>
    have harrived : KeptInv { s with
        incoming := s.incoming ++ ms
        received := s.received ++ dataOf ms } := by
      refine ⟨?_, h.unshown⟩
      change s.shown ++ (dataOf s.packets ++ dataOf (s.incoming ++ ms)) = s.received ++ dataOf ms
      rw [dataOf_append, ← h.kept, ← List.append_assoc (dataOf s.packets), ← List.append_assoc]
      rfl
    unfold shellStep
    dsimp only
    split
    · rename_i hreading
      have hrecv := Shell.recvLoop_passes (Shell.transportRead_passes { reads with
        buffered := min reads.buffered s.incoming.length })
        ({ s with
          incoming := s.incoming ++ ms
          received := s.received ++ dataOf ms }.waiting.length + 1) reads.blocked
        { s with
          incoming := s.incoming ++ ms
          received := s.received ++ dataOf ms }
      refine ⟨?_, fun hphase => absurd (hrecv.phase.trans hreading) hphase⟩
      exact hrecv.data.trans (harrived.kept.trans hrecv.received.symm)
    · exact harrived
  | otherReads reads =>
    unfold shellStep
    dsimp only
    split
    · rename_i hreading
      have hread := s.transportRead_passes reads
      exact hpasses hread fun hphase => absurd (hread.phase.trans hreading) hphase
    · refine hpasses ⟨rfl, rfl, ?_, List.prefix_rfl⟩ h.unshown
      change s.shown ++ (dataOf (s.packets ++ s.incoming) ++ []) = _
      rw [List.append_nil, dataOf_append]
      rfl

/-- Where data is neither lost nor shown twice, all is shown when none waits. -/
theorem KeptInv.shown_iff (h : KeptInv s) : s.shown = s.received ↔ s.waiting = [] := by
  constructor
  · intro hall
    have hkept := h.kept
    rw [hall] at hkept
    exact List.append_right_eq_self.mp hkept
  · intro hnone
    rw [← h.kept, hnone, List.append_nil]

/-- getshell goes on with nothing shown. -/
theorem queueGetshell_shown {poll : Poll} (h : KeptInv s) (hphase : s.phase = .getshell) :
    AllShown (s.queueGetshell poll) ↔
      ((s.request s.processState poll).1 = .success → s.received = []) := by
  obtain ⟨hrequest, hsame, -⟩ := s.request_passes s.processState poll
  have hnone := h.unshown (show s.phase ≠ .reading by simp [hphase])
  have hstays : (s.request s.processState poll).2.2.phase ≠ .reading := by
    rw [hrequest.phase, hphase]
    simp
  unfold Shell.queueGetshell
  dsimp only
  by_cases hsuccess : (s.request s.processState poll).1 = .success
  · rw [if_pos hsuccess]
    unfold AllShown
    dsimp only
    rw [hsame, hrequest.received, hnone]
    exact ⟨fun hall _ => (hall rfl).symm, fun hall _ => (hall hsuccess).symm⟩
  · rw [if_neg hsuccess]
    refine ⟨fun _ hreturned => absurd hreturned hsuccess, fun _ => ?_⟩
    split
    · exact fun hreading => absurd hreading hstays
    · exact fun hreading => Phase.noConfusion hreading

/-- Nothing waits in front of a message under on_recv. -/
theorem message_shown {ms : List ChannelMessage} {reads : Reads} (h : KeptInv s)
    (hreading : s.phase = .reading) (hshown : s.shown = s.received) :
    AllShown (shellStep s (.message ms reads)) ↔
      ∀ i, 1024 * i < (dataOf ms).length → reads.blocked.getD i false = false := by
  obtain ⟨hpackets, hincoming⟩ := List.append_eq_nil_iff.mp (h.shown_iff.mp hshown)
  have hnext := shellStep_kept s (.message ms reads) h
  have hstep : shellStep s (.message ms reads) = Shell.onRecv (Shell.transportRead
      { reads with buffered := min reads.buffered s.incoming.length }) reads.blocked
      { s with incoming := s.incoming ++ ms, received := s.received ++ dataOf ms } := if_pos hreading
  have hphase : (shellStep s (.message ms reads)).phase = .reading := by
    rw [hstep]
    exact (Shell.recvLoop_passes (Shell.transportRead_passes _) _ _ _).phase.trans hreading
  have hbuffered : dataOf ((s.incoming ++ ms).take (min reads.buffered s.incoming.length)) = [] := by
    rw [List.take_append_of_le_length (Nat.min_le_right _ _)]
    exact dataOf_take hincoming _
  have hempties := Shell.onRecv_empties
    (s := { s with incoming := s.incoming ++ ms, received := s.received ++ dataOf ms })
    { reads with buffered := min reads.buffered s.incoming.length } reads.blocked hpackets hbuffered
  have hdata : dataOf (s.incoming ++ ms) = dataOf ms := by
    rw [dataOf_append, hincoming, List.nil_append]
  dsimp only at hempties
  rw [hdata, ← hstep, ← hnext.shown_iff] at hempties
  exact ⟨fun hall => hempties.mp (hall hphase), fun hok _ => hempties.mpr hok⟩

theorem shellStep_shown (s : Shell) (e : ShellEvent) (h : KeptInv s) (hshown : AllShown s) :
    AllShown (shellStep s e) ↔ ShownAtOnce s e := by
  cases e with
  | timer poll =>
    unfold shellStep ShownAtOnce
    cases hphase : s.phase with
    | getshell =>
      refine (queueGetshell_shown h hphase).trans ⟨fun hok _ => hok, fun hok => hok rfl⟩
    | setenv => exact iff_of_true (fun hlater => by contradiction) (fun hgetshell => by contradiction)
    | setterm => exact iff_of_true (fun hlater => by contradiction) (fun hgetshell => by contradiction)
    | reading => exact iff_of_true hshown (fun hgetshell => by contradiction)
    | stopped => exact iff_of_true hshown (fun hgetshell => by contradiction)
  | message ms reads =>
    by_cases hreading : s.phase = .reading
    · exact (message_shown h hreading (hshown hreading)).trans
        ⟨fun hok _ => hok, fun hok => hok hreading⟩
    · have hstep : (shellStep s (.message ms reads)).phase = s.phase := by
        unfold shellStep
        dsimp only
        rw [if_neg hreading]
      refine iff_of_true (fun hlater => ?_) fun hnow => absurd hnow hreading
      exact absurd (hstep.symm.trans hlater) hreading
  | otherReads reads =>
    refine iff_of_true (fun hlater => ?_) trivial
    by_cases hreading : s.phase = .reading
    · obtain ⟨hpackets, hincoming⟩ := List.append_eq_nil_iff.mp (h.shown_iff.mp (hshown hreading))
      have hstep : shellStep s (.otherReads reads) = s.transportRead reads := if_pos hreading
      obtain ⟨hempty, hdata⟩ := Shell.transportRead_quiet hpackets (dataOf_take hincoming reads.buffered)
      apply (shellStep_kept s (.otherReads reads) h).shown_iff.mpr
      rw [hstep]
      unfold Shell.waiting
      rw [hempty, hdata, hincoming]
      rfl
    · have hstep : (shellStep s (.otherReads reads)).phase = s.phase := by
        unfold shellStep
        dsimp only
        rw [if_neg hreading]
      exact absurd (hstep.symm.trans hlater) hreading

theorem keptInv_opened (incoming packets : List ChannelMessage) :
    KeptInv (Shell.opened incoming packets) := ⟨List.nil_append _, fun _ => rfl⟩

/-- Behind queue_read everything received has been given to webvterm_recv, in all states of a run,
exactly when no data has come before getshell finds its reply and no read that data waits for is
held up. -/
theorem all_shown_iff (incoming packets : List ChannelMessage) (es : List ShellEvent) :
    (∀ pre, pre <+: es → AllShown (run shellStep (Shell.opened incoming packets) pre)) ↔
      AllSteps shellStep ShownAtOnce (Shell.opened incoming packets) es :=
  forall_prefix_iff shellStep shellStep_kept shellStep_shown (keptInv_opened incoming packets)
    (fun hreading => absurd hreading (by simp [Shell.opened]))

/-- Prompt and output come with the reply to the shell request and stay where they are. -/
theorem output_left_waiting :
    ¬ AllShown (run shellStep (Shell.opened [] [])
      [.timer ⟨false, 10, false⟩, .message [.reply false] ⟨0, [], []⟩, .timer ⟨false, 10, false⟩,
        .timer ⟨false, 10, false⟩,
        .message [.reply true, .reply true, .data [0x24, 0x20]] ⟨0, [], []⟩,
        .timer ⟨false, 10, false⟩]) := by
  unfold AllShown
  decide +kernel

end Jterm.Ssh
