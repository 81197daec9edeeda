import Jterm.Lib.Runs
import Jterm.Ssh.KexInit

/-!
The start of the handshake (session.c): the session sends its banner and takes lines of the
server until one begins with SSH-. Sends may be short, and the server's bytes come in any
pieces; a call that finds no more of them is to be made again.
-/
namespace Jterm.Ssh.Banner

open Runs
open Transport (SendCall)
open Kex (nameOf)

def lf : UInt8 := 10
def cr : UInt8 := 13

/-- LIBSSH2_SSH_DEFAULT_BANNER_WITH_CRLF -/
def defaultBanner : List UInt8 := nameOf "SSH-2.0-libssh2_1.4.4_DEV" ++ [cr, lf]

/-- sizeof(session->banner_TxRx_banner) -/
def bannerSize : ℕ := 256

inductive StartupState
  | idle
  | created
  | sent
  | sent1
  deriving DecidableEq, Repr

/-- `txRx` says that `banner_TxRx_state` is created; `line` is what has been written to
`banner_TxRx_banner`. The bytes in the socket and those given to it are `incoming`
and `outgoing`. -/
structure Session where
  startup : StartupState
  txRx : Bool
  totalSend : ℕ
  line : List UInt8
  localBanner : Option (List UInt8)
  remoteBanner : Option (List UInt8)
  incoming : List UInt8
  outgoing : List UInt8
  deriving DecidableEq, Repr

/-- What the calls return; `kex` is a call that goes on with the key exchange, `spins` one that
does not end. -/
inductive Ret
  | none
  | eagain
  | socketRecv
  | disconnect
  | bannerRecv
  | kex
  | spins
  deriving DecidableEq, Repr

/-- What recv returns when there are no more bytes. -/
inductive RecvEnd
  | again
  | fails
  | closed
  deriving DecidableEq, Repr

/-- `banner_send`. A call that goes on with a banner takes the default one. -/
def bannerSend (s : Session) (call : SendCall) : Ret × Session :=
  let banner := if s.txRx then defaultBanner else s.localBanner.getD defaultBanner
  let rest := banner.drop s.totalSend
  match call with
  | .takes n =>
    if rest.length ≤ n then
      (.none, { s with txRx := false, totalSend := 0, outgoing := s.outgoing ++ rest })
    else
      (.eagain, { s with
        txRx := true, totalSend := s.totalSend + n, outgoing := s.outgoing ++ rest.take n })
  | .again => (.eagain, { s with txRx := true })
  | .fails => (.socketRecv, { s with txRx := false, totalSend := 0 })

inductive LineEnd
  | whole
  | empty
  | nul
  deriving DecidableEq, Repr

/-- The loop of banner_receive, one byte a round, with the line so far. -/
def receiveLine : List UInt8 → List UInt8 → LineEnd × List UInt8 × List UInt8
  | line, [] =>
    if line.length < bannerSize ∧ line.getLast? ≠ some lf then (.empty, line, [])
    else (.whole, line, [])
  | line, c :: incoming =>
    if line.length < bannerSize ∧ line.getLast? ≠ some lf then
      if c = 0 then (.nul, line, incoming) else receiveLine (line ++ [c]) incoming
    else (.whole, line, c :: incoming)

/-- Without the line feeds and carriage returns at its end. -/
def trimLine (line : List UInt8) : List UInt8 :=
  (line.reverse.dropWhile fun c => c == lf || c == cr).reverse

/-- The line that `banner_receive` goes on with. -/
def openLine (s : Session) : List UInt8 := if s.txRx then s.line.take s.totalSend else []

def bannerReceive (s : Session) (ends : RecvEnd) : Ret × Session :=
  match receiveLine (openLine s) s.incoming with
  | (.empty, line, incoming) =>
    match ends with
    | .again => (.eagain, { s with
        txRx := true, totalSend := line.length, line := line, incoming := incoming })
    | .fails => (.socketRecv, { s with
        txRx := false, totalSend := 0, line := line, incoming := incoming })
    | .closed => (.disconnect, { s with txRx := true, line := line, incoming := incoming })
  | (.nul, line, incoming) => (.bannerRecv, { s with
      txRx := false, totalSend := 0, line := line, incoming := incoming })
  | (.whole, line, incoming) =>
    let s := { s with txRx := false, totalSend := 0, line := line, incoming := incoming }
    if trimLine line = [] then (.bannerRecv, s)
    else (.none, { s with remoteBanner := some (trimLine line) })

/-- strncmp of the banner with "SSH-". -/
def isSsh (banner : List UInt8) : Bool := banner.take 4 == nameOf "SSH-"

/-- The loop over the lines, of at most so many. -/
def receiveBanner (ends : RecvEnd) : ℕ → Session → Ret × Session
  | 0, s => (.spins, s)
  | rounds + 1, s =>
    match bannerReceive s ends with
    | (.none, s) =>
      if (s.remoteBanner.map isSsh).getD false then (.none, s) else receiveBanner ends rounds s
    | (ret, s) => (ret, s)

def startupSent (s : Session) (ends : RecvEnd) : Ret × Session :=
  match receiveBanner ends (s.incoming.length + 1) s with
  | (.none, s) => (.kex, { s with startup := .sent1 })
  | (ret, s) => (ret, s)

def startupCreated (s : Session) (send : SendCall) (ends : RecvEnd) : Ret × Session :=
  match bannerSend s send with
  | (.none, s) => startupSent { s with startup := .sent, txRx := false } ends
  | (ret, s) => (ret, s)

/-- `session_startup` as far as the key exchange. -/
def sessionStartup (s : Session) (send : SendCall) (ends : RecvEnd) : Ret × Session :=
  match s.startup with
  | .idle => startupCreated { s with startup := .created } send ends
  | .created => startupCreated s send ends
  | .sent => startupSent s ends
  | .sent1 => (.kex, s)

/-! Lines. -/

/-- A line, with its carriage return but without its line feed, that fits in the buffer and has
something in it. -/
structure IsLine (line : List UInt8) : Prop where
  noLf : lf ∉ line
  noNul : 0 ∉ line
  short : line.length < bannerSize
  nonempty : trimLine line ≠ []

/-- What a server sends first: lines of any kind, and its version. -/
def greeting (lines : List (List UInt8)) (version : List UInt8) : List UInt8 :=
  lines.flatMap (fun line => line ++ [lf]) ++ (version ++ [lf])

theorem trimLine_lf (line : List UInt8) : trimLine (line ++ [lf]) = trimLine line := by
  unfold trimLine
  rw [List.reverse_append]
  rfl

theorem receiveLine_done (line incoming : List UInt8) :
    receiveLine (line ++ [lf]) incoming = (.whole, line ++ [lf], incoming) := by
  have hdone : ¬ ((line ++ [lf]).length < bannerSize ∧ (line ++ [lf]).getLast? ≠ some lf) := by
    simp
  cases incoming with
  | nil =>
    unfold receiveLine
    rw [if_neg hdone]
  | cons c incoming =>
    unfold receiveLine
    rw [if_neg hdone]

/-- Either the bytes end within the line, or the line is taken and nothing behind it. -/
theorem receiveLine_cases {front back incoming later more : List UInt8}
    (hline : IsLine (front ++ back)) (hstream : incoming ++ later = back ++ lf :: more) :
    (∃ left, back = incoming ++ left ∧ later = left ++ lf :: more ∧
      receiveLine front incoming = (.empty, front ++ incoming, [])) ∨
    ∃ rest, rest ++ later = more ∧ rest.length < incoming.length ∧
      receiveLine front incoming = (.whole, front ++ back ++ [lf], rest) := by
  obtain ⟨hlf, hnul, hshort, -⟩ := hline
  induction incoming generalizing front back with
  | nil =>
    refine .inl ⟨back, rfl, hstream, ?_⟩
    have hopen : front.length < bannerSize ∧ front.getLast? ≠ some lf := by
      rw [List.length_append] at hshort
      refine ⟨by omega, fun hlast => hlf ?_⟩
      exact List.mem_append_left _ (List.mem_of_getLast? hlast)
    unfold receiveLine
    rw [if_pos hopen, List.append_nil]
  | cons c incoming ih =>
    have hopen : front.length < bannerSize ∧ front.getLast? ≠ some lf := by
      rw [List.length_append] at hshort
      refine ⟨by omega, fun hlast => hlf ?_⟩
      exact List.mem_append_left _ (List.mem_of_getLast? hlast)
    unfold receiveLine
    rw [if_pos hopen]
    cases back with
    | nil =>
      obtain ⟨rfl, hmore⟩ := List.cons.inj hstream
      rw [if_neg (by decide), receiveLine_done, List.append_nil]
      exact .inr ⟨incoming, hmore, Nat.lt_succ_self _, rfl⟩
    | cons b back =>
      obtain ⟨rfl, hmore⟩ := List.cons.inj hstream
      have hsame : front ++ [c] ++ back = front ++ c :: back := by simp
      have hc : c ≠ 0 := by
        intro hzero
        exact hnul (by simp [hzero])
      rw [if_neg hc]
      rw [← hsame] at hlf hnul hshort
      rcases ih hmore hlf hnul hshort with ⟨left, hback, hlater, hreceive⟩ | ⟨rest, hrest, hlt, hreceive⟩
      · refine .inl ⟨left, by rw [hback]; rfl, hlater, ?_⟩
        rw [hreceive]
        simp
      · refine .inr ⟨rest, hrest, ?_, ?_⟩
        · rw [List.length_cons]
          omega
        · rw [hreceive, hsame]

/-! The lines of a server, taken in some calls. -/

/-- The calls have taken the stream up to here: the line that is open and the bytes in the socket
and to come are what the server sends from some line on. -/
structure Awaits (s : Session) (lines : List (List UInt8)) (version rest later : List UInt8) :
    Prop where
  valid : ∀ line ∈ lines, IsLine line ∧ isSsh (trimLine line) = false
  stream : openLine s ++ (s.incoming ++ later) = greeting lines version ++ rest
  inside : lf ∉ openLine s

/-- What banner_receive does not touch. -/
def Untouched (s s' : Session) : Prop :=
  s'.startup = s.startup ∧ s'.localBanner = s.localBanner ∧ s'.outgoing = s.outgoing

/-- The line that is open is a part of the next one. -/
theorem open_part {front stream line more : List UInt8} (hinside : lf ∉ front)
    (h : front ++ stream = line ++ lf :: more) :
    ∃ back, line = front ++ back ∧ stream = back ++ lf :: more := by
  rcases List.append_eq_append_iff.mp h with ⟨back, hfront, hstream⟩ | ⟨back, hline', hstream⟩
  · exact ⟨back, hfront, hstream⟩
  · cases back with
    | nil => exact ⟨[], by simpa using hline'.symm, by simpa using hstream.symm⟩
    | cons c back =>
      exfalso
      obtain ⟨rfl, -⟩ := List.cons.inj hstream
      exact hinside (by simp [hline'])

theorem greeting_cons (line : List UInt8) (lines : List (List UInt8)) (version : List UInt8) :
    greeting (line :: lines) version = line ++ lf :: greeting lines version := by
  simp [greeting]

theorem openLine_waiting (s : Session) (line incoming : List UInt8) :
    openLine { s with
      txRx := true, totalSend := line.length, line := line, incoming := incoming } = line := by
  unfold openLine
  dsimp only
  rw [if_pos rfl, List.take_length]

/-- banner_receive waits within the line, or takes it and awaits the next one. -/
theorem bannerReceive_cases {s : Session} {line more later : List UInt8} (hline : IsLine line)
    (hinside : lf ∉ openLine s) (hstream : openLine s ++ (s.incoming ++ later) = line ++ lf :: more) :
    (∃ s', bannerReceive s .again = (.eagain, s') ∧ Untouched s s' ∧ s'.incoming = [] ∧
      lf ∉ openLine s' ∧ openLine s' ++ later = line ++ lf :: more ∧
        (openLine s').length ≤ line.length) ∨
    ∃ s', bannerReceive s .again = (.none, s') ∧ Untouched s s' ∧
      s'.remoteBanner = some (trimLine line) ∧ openLine s' = [] ∧ s'.incoming ++ later = more ∧
        s'.incoming.length < s.incoming.length := by
  obtain ⟨back, rfl, hback⟩ := open_part hinside hstream
  unfold bannerReceive
  rcases receiveLine_cases hline hback with ⟨left, rfl, hlater, hreceive⟩ | ⟨rest, hrest, hlt, hreceive⟩
  · rw [hreceive]
    refine .inl ⟨_, rfl, ⟨rfl, rfl, rfl⟩, rfl, ?_, ?_, ?_⟩
    · rw [openLine_waiting]
      intro hmem
      refine hline.noLf ?_
      rw [← List.append_assoc]
      exact List.mem_append_left _ hmem
    · rw [openLine_waiting, hlater]
      simp
    · rw [openLine_waiting, List.length_append, List.length_append, List.length_append]
      omega
  · rw [hreceive]
    dsimp only
    rw [trimLine_lf, if_neg hline.nonempty]
    exact .inr ⟨_, rfl, ⟨rfl, rfl, rfl⟩, rfl, rfl, hrest, hlt⟩

theorem receiveBanner_cases {lines : List (List UInt8)} {version rest later : List UInt8}
    (hversion : IsLine version ∧ isSsh (trimLine version) = true) {rounds : ℕ} {s : Session}
    (hrounds : s.incoming.length < rounds) (h : Awaits s lines version rest later) :
    (∃ s' todo, receiveBanner .again rounds s = (.eagain, s') ∧ Untouched s s' ∧
      Awaits s' todo version rest later ∧ rest.length < later.length) ∨
    ∃ s', receiveBanner .again rounds s = (.none, s') ∧ Untouched s s' ∧
      s'.remoteBanner = some (trimLine version) ∧ s'.incoming ++ later = rest := by
  induction rounds generalizing s lines with
  | zero => omega
  | succ rounds ih =>
    obtain ⟨hvalid, hstream, hinside⟩ := h
    unfold receiveBanner
    cases lines with
    | nil =>
      have hhere : openLine s ++ (s.incoming ++ later) = version ++ lf :: rest := by
        rw [hstream]
        simp [greeting]
      rcases bannerReceive_cases hversion.1 hinside hhere with
        ⟨s', hreceive, hsame, hempty, hopen, hleft, hle⟩ | ⟨s', hreceive, hsame, hbanner, -, hrest, -⟩
      · rw [hreceive]
        refine .inl ⟨s', [], rfl, hsame, ⟨nofun, ?_, hopen⟩, ?_⟩
        · rw [hempty, List.nil_append, hleft]
          simp [greeting]
        · have hlen := congrArg List.length hleft
          rw [List.length_append, List.length_append, List.length_cons] at hlen
          omega
      · rw [hreceive]
        dsimp only
        rw [hbanner, Option.map_some, Option.getD_some, hversion.2, if_pos rfl]
        exact .inr ⟨s', rfl, hsame, hbanner, hrest⟩
    | cons line lines =>
      obtain ⟨hline, hother⟩ := hvalid line List.mem_cons_self
      have hothers := fun l hl => hvalid l (List.mem_cons_of_mem line hl)
      rw [greeting_cons, List.append_assoc, List.cons_append] at hstream
      rcases bannerReceive_cases hline hinside hstream with
        ⟨s', hreceive, hsame, hempty, hopen, hleft, hle⟩ |
          ⟨s', hreceive, hsame, hbanner, hnew, hrest, hlt⟩
      · rw [hreceive]
        refine .inl ⟨s', line :: lines, rfl, hsame, ⟨hvalid, ?_, hopen⟩, ?_⟩
        · rw [hempty, List.nil_append, hleft, greeting_cons, List.append_assoc, List.cons_append]
        · have hlen := congrArg List.length hleft
          simp only [List.length_append, List.length_cons] at hlen
          omega
      · rw [hreceive]
        dsimp only
        rw [hbanner, Option.map_some, Option.getD_some, hother, if_neg Bool.false_ne_true]
        have hnext : Awaits s' lines version rest later := by
          refine ⟨hothers, ?_, ?_⟩
          · rw [hnew, List.nil_append, hrest]
          · rw [hnew]
            exact List.not_mem_nil
        obtain ⟨hstartup, hlocal, hout⟩ := hsame
        rcases ih (by omega) hnext with
          ⟨s'', todo, hwait, ⟨h1, h2, h3⟩, hawaits, hmore⟩ | ⟨s'', hdone, ⟨h1, h2, h3⟩, hfound, hleft⟩
        · exact .inl ⟨s'', todo, hwait, ⟨h1.trans hstartup, h2.trans hlocal, h3.trans hout⟩,
            hawaits, hmore⟩
        · exact .inr ⟨s'', hdone, ⟨h1.trans hstartup, h2.trans hlocal, h3.trans hout⟩, hfound, hleft⟩

/-! The handshake of a session. -/

/-- A session, and what its server is still to send; `rets` is what the calls have returned. -/
structure Wire where
  session : Session
  later : List UInt8
  rets : List Ret
  deriving DecidableEq, Repr

def Session.new : Session where
  startup := .idle
  txRx := false
  totalSend := 0
  line := []
  localBanner := none
  remoteBanner := none
  incoming := []
  outgoing := []

/-- A call, when so many more bytes have arrived. -/
def wireStep (w : Wire) (call : ℕ × SendCall) : Wire :=
  let session := { w.session with incoming := w.session.incoming ++ w.later.take call.1 }
  let (ret, session) := sessionStartup session call.2 .again
  ⟨session, w.later.drop call.1, w.rets ++ [ret]⟩

def Sends (_ : Wire) (call : ℕ × SendCall) : Prop := call.2 ≠ .fails

instance (w : Wire) : DecidablePred (Sends w) := fun _ => inferInstanceAs (Decidable (_ ≠ _))

/-- What holds in each state of `session_startup`. -/
structure StartupInv (lines : List (List UInt8)) (version rest : List UInt8) (s : Session)
    (later : List UInt8) : Prop where
  idle : s.startup = .idle → s.txRx = false ∧ s.totalSend = 0
  early : s.startup = .idle ∨ s.startup = .created → s.localBanner = none ∧
    s.outgoing ++ defaultBanner.drop s.totalSend = defaultBanner ∧
      s.incoming ++ later = greeting lines version ++ rest
  sent : s.startup = .sent → s.outgoing = defaultBanner ∧
    ∃ todo, Awaits s todo version rest later
  done : s.startup = .sent1 → s.outgoing = defaultBanner ∧
    s.remoteBanner = some (trimLine version) ∧ s.incoming ++ later = rest

section
variable {lines : List (List UInt8)} {version rest later : List UInt8} {s : Session}

/-- A call in state sent waits for more of the greeting, or is behind it. -/
theorem startupSent_cases (lines : List (List UInt8))
    (hversion : IsLine version ∧ isSsh (trimLine version) = true)
    (hstate : s.startup = .sent) (hout : s.outgoing = defaultBanner)
    {todo : List (List UInt8)} (h : Awaits s todo version rest later) :
    StartupInv lines version rest (startupSent s .again).2 later ∧
      ((startupSent s .again).1 = .eagain ∧ rest.length < later.length ∨
        (startupSent s .again).1 = .kex ∧ (startupSent s .again).2.startup = .sent1) := by
  unfold startupSent
  rcases receiveBanner_cases hversion (Nat.lt_succ_self _) h with
    ⟨s', todo', hreceive, ⟨hstartup, -, hsame⟩, hawaits, hmore⟩ |
      ⟨s', hreceive, ⟨hstartup, -, hsame⟩, hbanner, hrest⟩
  · rw [hreceive]
    dsimp only
    rw [hstate] at hstartup
    refine ⟨⟨?_, ?_, fun _ => ⟨hsame.trans hout, todo', hawaits⟩, ?_⟩, .inl ⟨rfl, hmore⟩⟩
    · intro hidle
      rw [hstartup] at hidle
      cases hidle
    · intro hearly
      rw [hstartup] at hearly
      rcases hearly with hearly | hearly <;> cases hearly
    · intro hdone
      rw [hstartup] at hdone
      cases hdone
  · rw [hreceive]
    refine ⟨⟨nofun, ?_, nofun, fun _ => ⟨hsame.trans hout, hbanner, hrest⟩⟩, .inr ⟨rfl, rfl⟩⟩
    intro hearly
    rcases hearly with hearly | hearly <;> cases hearly

/-- A call in state created sends on, and goes on when the banner is sent whole. -/
theorem startupCreated_cases (hlines : ∀ line ∈ lines, IsLine line ∧ isSsh (trimLine line) = false)
    (hversion : IsLine version ∧ isSsh (trimLine version) = true)
    (hstate : s.startup = .created) (hlocal : s.localBanner = none)
    (hout : s.outgoing ++ defaultBanner.drop s.totalSend = defaultBanner)
    (hstream : s.incoming ++ later = greeting lines version ++ rest) {call : SendCall}
    (hcall : call ≠ .fails) :
    let r := startupCreated s call .again
    StartupInv lines version rest r.2 later ∧
      (r.1 = .eagain ∧
          (rest.length < later.length ∨ ∀ n, call = .takes n → n < defaultBanner.length) ∨
        r.1 = .kex ∧ r.2.startup = .sent1) := by
  have hbanner : (if s.txRx then defaultBanner else s.localBanner.getD defaultBanner) =
      defaultBanner := by
    rw [hlocal]
    exact ite_self _
  have hwaits : ∀ s' : Session, s'.startup = .created → s'.localBanner = none →
      s'.outgoing ++ defaultBanner.drop s'.totalSend = defaultBanner →
        s'.incoming ++ later = greeting lines version ++ rest →
          StartupInv lines version rest s' later := by
    intro s' hstate' hlocal' hout' hstream'
    refine ⟨?_, fun _ => ⟨hlocal', hout', hstream'⟩, ?_, ?_⟩
    all_goals
      intro hother
      rw [hstate'] at hother
      cases hother
  unfold startupCreated bannerSend
  dsimp only
  rw [hbanner]
  cases call with
  | fails => exact absurd rfl hcall
  | again => exact ⟨hwaits _ hstate hlocal hout hstream, .inl ⟨rfl, .inr nofun⟩⟩
  | takes n =>
    by_cases hall : (defaultBanner.drop s.totalSend).length ≤ n
    · dsimp only
      rw [if_pos hall]
      dsimp only
      have hawaits : Awaits { s with
          startup := .sent, txRx := false, totalSend := 0
          outgoing := s.outgoing ++ defaultBanner.drop s.totalSend } lines version rest later :=
        ⟨hlines, hstream, List.not_mem_nil⟩
      obtain ⟨hinv, hret⟩ := startupSent_cases lines hversion rfl hout hawaits
      refine ⟨hinv, ?_⟩
      rcases hret with ⟨heagain, hmore⟩ | hkex
      · exact .inl ⟨heagain, .inl hmore⟩
      · exact .inr hkex
    · dsimp only
      rw [if_neg hall]
      refine ⟨hwaits _ hstate hlocal ?_ hstream, .inl ⟨rfl, .inr ?_⟩⟩
      · dsimp only
        rw [← List.drop_drop, List.append_assoc, List.take_append_drop, hout]
      · intro m hm
        have hnm := SendCall.takes.inj hm
        rw [List.length_drop] at hall
        omega

theorem StartupInv.arrives (h : StartupInv lines version rest s later) (n : ℕ) :
    StartupInv lines version rest { s with incoming := s.incoming ++ later.take n }
      (later.drop n) := by
  have hmoved : s.incoming ++ later.take n ++ later.drop n = s.incoming ++ later := by
    rw [List.append_assoc, List.take_append_drop]
  obtain ⟨hidle, hearly, hsent, hdone⟩ := h
  refine ⟨hidle, ?_, ?_, ?_⟩
  · intro hstate
    obtain ⟨hlocal, hout, hstream⟩ := hearly hstate
    exact ⟨hlocal, hout, hmoved.trans hstream⟩
  · intro hstate
    obtain ⟨hout, todo, hvalid, hstream, hinside⟩ := hsent hstate
    refine ⟨hout, todo, hvalid, ?_, hinside⟩
    rw [← hstream, ← hmoved]
    rfl
  · intro hstate
    obtain ⟨hout, hbanner, hstream⟩ := hdone hstate
    exact ⟨hout, hbanner, hmoved.trans hstream⟩

/-- One call, however much is sent. -/
theorem sessionStartup_cases (hlines : ∀ line ∈ lines, IsLine line ∧ isSsh (trimLine line) = false)
    (hversion : IsLine version ∧ isSsh (trimLine version) = true)
    (h : StartupInv lines version rest s later) {call : SendCall} (hcall : call ≠ .fails) :
    let r := sessionStartup s call .again
    StartupInv lines version rest r.2 later ∧
      (r.1 = .eagain ∧
          (rest.length < later.length ∨ ∀ m, call = .takes m → m < defaultBanner.length) ∨
        r.1 = .kex ∧ r.2.startup = .sent1) := by
  obtain ⟨hidle, hearly, hsent, hdone⟩ := h
  unfold sessionStartup
  cases hstate : s.startup with
  | idle =>
    obtain ⟨hlocal, hout, hstream⟩ := hearly (.inl hstate)
    exact startupCreated_cases hlines hversion (s := { s with startup := .created }) rfl hlocal hout
      hstream hcall
  | created =>
    obtain ⟨hlocal, hout, hstream⟩ := hearly (.inr hstate)
    exact startupCreated_cases hlines hversion hstate hlocal hout hstream hcall
  | sent =>
    obtain ⟨hout, todo, hawaits⟩ := hsent hstate
    obtain ⟨hinv, hret⟩ := startupSent_cases lines hversion hstate hout hawaits
    refine ⟨hinv, ?_⟩
    rcases hret with ⟨heagain, hmore⟩ | hkex
    · exact .inl ⟨heagain, .inl hmore⟩
    · exact .inr hkex
  | sent1 => exact ⟨⟨hidle, hearly, hsent, hdone⟩, .inr ⟨rfl, hstate⟩⟩

def WireInv (lines : List (List UInt8)) (version rest : List UInt8) (w : Wire) : Prop :=
  StartupInv lines version rest w.session w.later ∧ ∀ ret ∈ w.rets, ret = .eagain ∨ ret = .kex

theorem WireInv.step (hlines : ∀ line ∈ lines, IsLine line ∧ isSsh (trimLine line) = false)
    (hversion : IsLine version ∧ isSsh (trimLine version) = true) {w : Wire}
    (h : WireInv lines version rest w) {call : ℕ × SendCall} (hcall : Sends w call) :
    WireInv lines version rest (wireStep w call) := by
  obtain ⟨hnext, hret⟩ := sessionStartup_cases hlines hversion (h.1.arrives call.1) hcall
  refine ⟨hnext, ?_⟩
  intro ret hmem
  rcases List.mem_append.mp hmem with hold | hnew
  · exact h.2 ret hold
  · rw [List.mem_singleton.mp hnew]
    rcases hret with ⟨heagain, -⟩ | ⟨hkex, -⟩
    · exact .inl heagain
    · exact .inr hkex

end

theorem isLine_of {line : List UInt8} (h : lf ∉ line ∧ 0 ∉ line ∧ line.length < bannerSize ∧
    trimLine line ≠ []) : IsLine line := ⟨h.1, h.2.1, h.2.2.1, h.2.2.2⟩

end Jterm.Ssh.Banner
