import Jterm.Ssh.Login

/-!
How often the requests go out. A poll that ends a wait without the phase being over leaves the
request function idle, so the next poll sends the request once more; no poll is next when the
fifty are used up.
-/
namespace Jterm.Ssh

open Runs

def LoginRequest.phase : LoginRequest → LoginPhase
  | .userauthNone _ => .authcheck
  | .userauthPassword _ _ => .authenticate
  | .channelOpen _ => .requestshell

/-- The answer to a request with which its phase is over. -/
def LoginRequest.Grants : LoginRequest → Message → Prop
  | .userauthNone _, .userauthFailure _ => True
  | .userauthPassword _ _, .userauthSuccess => True
  | .channelOpen localChannel, .channelOpenConfirmation recipient => recipient = localChannel
  | _, _ => False

/-- The server has said no. -/
def LoginRequest.Refuses : LoginRequest → Message → Prop
  | .userauthPassword _ _, .userauthFailure _ => True
  | .userauthPassword _ _, .userauthPasswdChangereq => True
  | .channelOpen _, .channelOpenFailure _ => True
  | _, _ => False

/-- The request of the phase and its state. -/
def Login.current (s : Login) : Option (LoginRequest × RequestState) :=
  match s.phase with
  | .authcheck => some (.userauthNone s.username, s.userauthListState)
  | .authenticate => some (.userauthPassword s.username s.password, s.userauthPswdState)
  | .requestshell =>
    some (.channelOpen (if s.openState = .idle then s.nextChannel else s.openLocalChannel),
      s.openState)
  | _ => none

/-- How many requests of a phase the server has received. -/
def LoginSession.sent (s : LoginSession) (phase : LoginPhase) : ℕ :=
  s.requests.countP fun request => request.phase = phase

/-- Every request is sent once at most, and a refusal has ended the attempt. -/
structure Once (s : Login) : Prop where
  sent : ∀ phase, s.session.sent phase ≤ 1
  refused : ∀ request m, (request, m) ∈ s.session.taken → request.Refuses m →
    s.phase = .connectFailed

/-- What ends the wait ends the phase, or all fifty polls are used up. -/
def Awaited.Ends (request : LoginRequest) (c : ℕ) : Awaited → Prop
  | .found m => request.Grants m ∨ 50 ≤ c
  | .eagain => True
  | .failed => 50 ≤ c

/-- The answer that a poll finds with its request out ends the phase, unless the poll is the last. -/
def PollEnds (s : Login) (poll : Poll) : Prop :=
  ∀ request state, s.current = some (request, state) → state = .sent ∨ poll.kex = false →
    (request.requirev s.session (state = .sent) poll).1.Ends request s.c

def StepEnds (s : Login) : LoginEvent → Prop
  | .timer poll => PollEnds s poll
  | .arrives _ => True

instance (request : LoginRequest) (m : Message) : Decidable (request.Grants m) := by
  cases request <;> cases m <;> unfold LoginRequest.Grants <;> infer_instance

instance (request : LoginRequest) (c : ℕ) : ∀ awaited, Decidable (Awaited.Ends request c awaited)
  | .found m => inferInstanceAs (Decidable (request.Grants m ∨ 50 ≤ c))
  | .eagain => .isTrue trivial
  | .failed => inferInstanceAs (Decidable (50 ≤ c))

instance (s : Login) (poll : Poll) : Decidable (PollEnds s poll) :=
  match h : s.current with
  | none => .isTrue fun _ _ hcurrent => absurd (h.symm.trans hcurrent) (by simp)
  | some (request, state) =>
    decidable_of_iff (state = .sent ∨ poll.kex = false →
        (request.requirev s.session (state = .sent) poll).1.Ends request s.c) <| by
      refine ⟨fun hends r st hcurrent => ?_, fun hends => hends request state h⟩
      obtain ⟨rfl, rfl⟩ := Prod.mk.inj (Option.some.inj (h.symm.trans hcurrent))
      exact hends

instance (s : Login) : ∀ e, Decidable (StepEnds s e)
  | .timer poll => inferInstanceAs (Decidable (PollEnds s poll))
  | .arrives _ => .isTrue trivial

/-- The order of the phases. -/
def LoginPhase.rank : LoginPhase → ℕ
  | .authcheck => 0
  | .authenticate => 1
  | .requestshell => 2
  | .setenv => 3
  | .connectFailed => 4

/-- Before its request is out, a phase has none on the wire, and neither has a later phase. -/
structure OnceInv (s : Login) : Prop where
  once : Once s
  unsent : ∀ request state, s.current = some (request, state) → state ≠ .sent →
    s.session.sent s.phase = 0
  later : ∀ phase, s.phase.rank < phase.rank → s.session.sent phase = 0

theorem LoginRequest.not_refuses {request : LoginRequest} {m : Message} (h : request.Grants m) :
    ¬ request.Refuses m := by
  intro hrefuses
  cases request with
  | userauthNone username => exact hrefuses
  | userauthPassword username password =>
    cases m with
    | userauthSuccess => exact hrefuses
    | _ => exact h
  | channelOpen localChannel =>
    cases m with
    | channelOpenConfirmation recipient => exact hrefuses
    | _ => exact h

theorem LoginPhase.rank_phase {s : Login} {request : LoginRequest} {state : RequestState}
    (h : s.current = some (request, state)) : request.phase = s.phase ∧ s.phase ≠ .connectFailed := by
  unfold Login.current at h
  split at h
  case h_4 => exact absurd h (by simp)
  all_goals
    rename_i hphase
    obtain ⟨rfl, -⟩ := Prod.mk.inj (Option.some.inj h)
    rw [hphase]
    exact ⟨rfl, by simp⟩

/-- What requirev hands out is recorded; what was sent plays no part. -/
theorem LoginRequest.requirev_spec (request : LoginRequest) (s : LoginSession)
    (requests : List LoginRequest) (resumed : Bool) (poll : Poll) :
    let result := request.requirev { s with requests := requests } resumed poll
    result.1 = (request.requirev s resumed poll).1 ∧ result.2.requests = requests ∧
      ∀ entry ∈ result.2.taken, entry ∈ s.taken ∨
        ∃ m, entry = (request, m) ∧ result.1 = .found m := by
  have htake : ∀ (m : Message), ∀ entry ∈ s.taken ++ [(request, m)],
      entry ∈ s.taken ∨ ∃ n, entry = (request, n) ∧ Awaited.found m = .found n := by
    intro m entry hentry
    rcases List.mem_append.mp hentry with hold | hnew
    · exact .inl hold
    · exact .inr ⟨m, List.mem_singleton.mp hnew, rfl⟩
  unfold LoginRequest.requirev
  dsimp only
  cases request.askv s.packets with
  | some m => exact ⟨rfl, rfl, htake m⟩
  | none =>
    cases request.read poll.reads s.incoming s.packets with
    | mk seen rest =>
      cases seen with
      | false => exact ⟨rfl, rfl, fun entry hentry => .inl hentry⟩
      | true =>
        dsimp only
        rw [if_pos rfl, if_pos rfl]
        cases request.askv rest.2 with
        | some m => exact ⟨rfl, rfl, htake m⟩
        | none => exact ⟨rfl, rfl, fun entry hentry => .inl hentry⟩

/-- During a key exchange nothing happens before the request is sent. -/
theorem LoginRequest.poll_kex (request : LoginRequest) (s : LoginSession) {state : RequestState}
    {poll : Poll} (hstate : state ≠ .sent) (hkex : poll.kex = true) :
    request.poll s state poll = (.eagain, .created, s) := by
  cases state with
  | idle => simp [LoginRequest.poll, hkex]
  | created => simp [LoginRequest.poll, hkex]
  | sent => exact absurd rfl hstate

/-- Otherwise the request is sent, unless it is out, and its answer awaited. -/
theorem LoginRequest.poll_spec (request : LoginRequest) (s : LoginSession) {state : RequestState}
    {poll : Poll} (hout : state = .sent ∨ poll.kex = false) :
    let awaited := (request.requirev s (state = .sent) poll).1
    ∃ session, request.poll s state poll =
        (awaited, if awaited = .eagain then .sent else .idle, session) ∧
      session.requests = (if state = .sent then s.requests else s.requests ++ [request]) ∧
      ∀ entry ∈ session.taken, entry ∈ s.taken ∨
        ∃ m, entry = (request, m) ∧ awaited = .found m := by
  by_cases hsent : state = .sent
  · subst hsent
    obtain ⟨-, hrequests, htaken⟩ := requirev_spec request s s.requests true poll
    exact ⟨_, rfl, hrequests, htaken⟩
  · have hkex : poll.kex = false := hout.resolve_left hsent
    obtain ⟨hsame, hrequests, htaken⟩ :=
      requirev_spec request s (s.requests ++ [request]) false poll
    have hresumed : (decide (state = .sent)) = false := decide_eq_false hsent
    dsimp only
    rw [hresumed, if_neg hsent, ← hsame]
    refine ⟨_, ?_, hrequests, htaken⟩
    cases state with
    | idle => simp only [LoginRequest.poll, hkex, Bool.false_eq_true, if_false]
    | created => simp only [LoginRequest.poll, hkex, Bool.false_eq_true, if_false]
    | sent => exact absurd rfl hsent

variable {s t : Login} {poll : Poll} {request : LoginRequest} {state : RequestState}

theorem sent_append (session : LoginSession) (request : LoginRequest) (phase : LoginPhase) :
    ({ session with requests := session.requests ++ [request] } : LoginSession).sent phase =
      session.sent phase + if request.phase = phase then 1 else 0 := by
  simp [LoginSession.sent, List.countP_append, List.countP_singleton]

/-- What a handler has to bring for its poll: `t` is the state behind the wrapper. -/
structure Polls (s t : Login) (poll : Poll) (request : LoginRequest) (state : RequestState)
    (granted : Bool) : Prop where
  current : s.current = some (request, state)
  session : t.session = (request.poll s.session state poll).2.2
  phase : t.phase = s.phase
  counter : t.c = s.c
  next : ∀ request' state', t.current = some (request', state') →
    state' = (request.poll s.session state poll).2.1
  granted_iff : granted = true ↔ ∃ m, (request.poll s.session state poll).1 = .found m ∧
    request.Grants m

/-- What matters of a poll: it sends its request only if that is not out, it waits on with the
request out or does nothing, and a refusal it takes is taken by the last poll. -/
structure Once.Keeps (s t : Login) (request : LoginRequest) (state : RequestState) (granted : Bool) :
    Prop where
  requests : t.session.requests = s.session.requests ∨
    state ≠ .sent ∧ t.session.requests = s.session.requests ++ [request]
  waits : granted = false → s.c < 50 → ∀ request' state', t.current = some (request', state') →
    state' ≠ .sent → state ≠ .sent ∧ t.session.requests = s.session.requests
  taken : ∀ r m, (r, m) ∈ t.session.taken → r.Refuses m →
    (r, m) ∈ s.session.taken ∨ granted = false ∧ 50 ≤ s.c

theorem Polls.keeps {granted : Bool} (h : Polls s t poll request state granted)
    (hends : PollEnds s poll) : Once.Keeps s t request state granted := by
  have hsession := h.session
  have hnext := h.next
  have hgranted := h.granted_iff
  by_cases hkex : state ≠ .sent ∧ poll.kex = true
  · rw [request.poll_kex s.session hkex.1 hkex.2] at hsession
    have hsame : t.session = s.session := hsession
    refine ⟨.inl ?_, fun _ _ _ _ _ _ => ⟨hkex.1, ?_⟩, fun r m hmem _ => .inl ?_⟩
    · rw [hsame]
    · rw [hsame]
    · rw [← hsame]
      exact hmem
  · have hout : state = .sent ∨ poll.kex = false := by
      by_cases hsent : state = .sent
      · exact .inl hsent
      · exact .inr (Bool.eq_false_iff.mpr fun hk => hkex ⟨hsent, hk⟩)
    have hpoll := hends request state h.current hout
    obtain ⟨session, hresult, hrequests, htaken⟩ := request.poll_spec s.session hout
    rw [hresult] at hsession hnext hgranted
    generalize (request.requirev s.session (state = .sent) poll).1 = awaited
      at hpoll hnext hgranted htaken
    have hsent : t.session.requests = s.session.requests ∨
        state ≠ .sent ∧ t.session.requests = s.session.requests ++ [request] := by
      rw [hsession, hrequests]
      by_cases hsent : state = .sent
      · left
        rw [if_pos hsent]
      · right
        rw [if_neg hsent]
        exact ⟨hsent, rfl⟩
    refine ⟨hsent, ?_, ?_⟩
    · intro hnot hc request' state' hcurrent hstate'
      have hidle := hnext request' state' hcurrent
      cases awaited with
      | eagain => exact absurd hidle hstate'
      | failed =>
        have hlast : 50 ≤ s.c := hpoll
        omega
      | found m =>
        rcases hpoll with hgrants | hlast
        · have htrue := hgranted.mpr ⟨m, rfl, hgrants⟩
          rw [hnot] at htrue
          exact absurd htrue Bool.false_ne_true
        · omega
    · intro r m hmem hrefuses
      rw [hsession] at hmem
      rcases htaken (r, m) hmem with hold | ⟨n, hentry, hfound⟩
      · exact .inl hold
      · right
        obtain ⟨rfl, rfl⟩ := Prod.mk.inj hentry
        subst hfound
        have hnot : ¬ r.Grants m := fun hgrants => LoginRequest.not_refuses hgrants hrefuses
        refine ⟨Bool.eq_false_iff.mpr fun htrue => ?_, hpoll.resolve_left hnot⟩
        obtain ⟨n, hn, hgrants⟩ := hgranted.mp htrue
        obtain rfl := Awaited.found.inj hn
        exact hnot hgrants

theorem Polls.onceInv {granted : Bool} (h : Polls s t poll request state granted)
    {next : LoginPhase} (hrank : next.rank = s.phase.rank + 1)
    (hinv : OnceInv s) (hends : PollEnds s poll) : OnceInv (.polled next (granted, t)) := by
  have hkeeps := h.keeps hends
  obtain ⟨hrequest, hrunning⟩ := LoginPhase.rank_phase h.current
  have hsent : ∀ phase, t.session.sent phase ≤ 1 ∧
      (phase ≠ s.phase → t.session.sent phase = s.session.sent phase) := by
    intro phase
    rcases hkeeps.requests with hsame | ⟨hstate, hadded⟩
    · have hcount : t.session.sent phase = s.session.sent phase := by
        unfold LoginSession.sent
        rw [hsame]
      rw [hcount]
      exact ⟨hinv.once.sent phase, fun _ => rfl⟩
    · have hzero := hinv.unsent request state h.current hstate
      have hcount := sent_append s.session request phase
      have hthere : t.session.sent phase = ({ s.session with
          requests := s.session.requests ++ [request] } : LoginSession).sent phase := by
        unfold LoginSession.sent
        rw [hadded]
      rw [hthere, hcount]
      by_cases hphase : request.phase = phase
      · rw [if_pos hphase, ← hphase, hrequest, hzero]
        refine ⟨Nat.le_refl 1, fun hne => absurd ?_ hne⟩
        rfl
      · rw [if_neg hphase]
        exact ⟨hinv.once.sent phase, fun _ => rfl⟩
  have hlater : ∀ phase, s.phase.rank < phase.rank → t.session.sent phase = 0 := by
    intro phase hphase
    have hne : phase ≠ s.phase := by
      rintro rfl
      omega
    rw [(hsent phase).2 hne]
    exact hinv.later phase hphase
  have hrefused : ∀ r m, (r, m) ∈ t.session.taken → r.Refuses m → granted = false ∧ 50 ≤ s.c := by
    intro r m hmem hrefuses
    refine (hkeeps.taken r m hmem hrefuses).resolve_left fun hold => ?_
    exact hrunning (hinv.once.refused r m hold hrefuses)
  unfold Login.polled
  dsimp only
  cases granted with
  | true =>
    rw [if_pos rfl]
    refine ⟨⟨fun phase => (hsent phase).1, ?_⟩, ?_, ?_⟩
    · intro r m hmem hrefuses
      exact absurd (hrefused r m hmem hrefuses).1 (by simp)
    · intro _ _ _ _
      exact hlater next (by omega)
    · intro phase hphase
      apply hlater
      change next.rank < phase.rank at hphase
      omega
  | false =>
    rw [if_neg Bool.false_ne_true, h.counter]
    by_cases hc : s.c < 50
    · rw [if_pos hc]
      refine ⟨⟨fun phase => (hsent phase).1, ?_⟩, ?_, ?_⟩
      · intro r m hmem hrefuses
        have hlast := (hrefused r m hmem hrefuses).2
        omega
      · intro request' state' hcurrent hstate'
        obtain ⟨hstate, hsame⟩ := hkeeps.waits rfl hc request' state' hcurrent hstate'
        have hzero := hinv.unsent request state h.current hstate
        change t.session.sent t.phase = 0
        rw [h.phase, ← hzero]
        unfold LoginSession.sent
        rw [hsame]
      · intro phase hphase
        apply hlater
        rw [← h.phase]
        exact hphase
    · rw [if_neg hc]
      refine ⟨⟨fun phase => (hsent phase).1, fun _ _ _ _ => rfl⟩, ?_, ?_⟩
      · intro request' state' hcurrent
        exact absurd hcurrent (by simp [Login.current])
      · intro phase hphase
        cases phase <;> simp [LoginPhase.rank] at hphase

theorem queueAuthcheck_inv (hphase : s.phase = .authcheck) (hinv : OnceInv s)
    (hends : PollEnds s poll) : OnceInv (queueAuthcheck s poll) := by
  have hpolls : Polls s (webssh2Authcheck s poll).2 poll (.userauthNone s.username)
      s.userauthListState (webssh2Authcheck s poll).1 := by
    unfold webssh2Authcheck userauthList
    dsimp only
    refine ⟨by simp only [Login.current, hphase], rfl, rfl, rfl, ?_, ?_⟩
    · intro request' state' hcurrent
      simp only [Login.current, hphase] at hcurrent
      exact (Prod.mk.inj (Option.some.inj hcurrent)).2.symm
    · generalize ((LoginRequest.userauthNone s.username).poll s.session s.userauthListState poll).1 =
        awaited
      cases awaited with
      | found m => cases m <;> simp [LoginRequest.Grants]
      | eagain => simp
      | failed => simp
  exact hpolls.onceInv (by rw [hphase]; rfl) hinv hends

theorem queueAuthenticate_inv (hphase : s.phase = .authenticate) (hinv : OnceInv s)
    (hends : PollEnds s poll) : OnceInv (queueAuthenticate s poll) := by
  have hwiped : ∀ {result : Bool × Login}, result = webssh2Authenticate s poll →
      result.1 = (userauthPassword s poll).1 ∧
        result.2.session = (userauthPassword s poll).2.session ∧ result.2.phase = s.phase ∧
        result.2.c = s.c ∧ result.2.userauthPswdState = (userauthPassword s poll).2.userauthPswdState := by
    rintro result rfl
    unfold webssh2Authenticate
    dsimp only
    by_cases haccepted : (userauthPassword s poll).1 = true
    · rw [if_pos haccepted]
      exact ⟨haccepted.symm, rfl, rfl, rfl, rfl⟩
    · rw [if_neg haccepted]
      exact ⟨(Bool.eq_false_iff.mpr haccepted).symm, rfl, rfl, rfl, rfl⟩
  obtain ⟨hresult, hsession, hsame, hc, hstate⟩ := hwiped rfl
  have hpolls : Polls s (webssh2Authenticate s poll).2 poll
      (.userauthPassword s.username s.password) s.userauthPswdState
      (webssh2Authenticate s poll).1 := by
    refine ⟨by simp only [Login.current, hphase], hsession, hsame, hc, ?_, ?_⟩
    · intro request' state' hcurrent
      simp only [Login.current, hsame, hphase] at hcurrent
      rw [← (Prod.mk.inj (Option.some.inj hcurrent)).2, hstate]
      rfl
    · rw [hresult]
      unfold userauthPassword
      dsimp only
      generalize ((LoginRequest.userauthPassword s.username s.password).poll s.session
        s.userauthPswdState poll).1 = awaited
      cases awaited with
      | found m => cases m <;> simp [LoginRequest.Grants]
      | eagain => simp
      | failed => simp
  exact hpolls.onceInv (by rw [hphase]; rfl) hinv hends

theorem queueRequestshell_inv (hphase : s.phase = .requestshell) (hinv : OnceInv s)
    (hends : PollEnds s poll) : OnceInv (queueRequestshell s poll) := by
  obtain ⟨localChannel, next, hlocal⟩ : ∃ localChannel next,
      (if s.openState = .idle then
        { s with openLocalChannel := s.nextChannel, nextChannel := s.nextChannel + 1 }
      else s) = { s with openLocalChannel := localChannel, nextChannel := next } ∧
      localChannel = if s.openState = .idle then s.nextChannel else s.openLocalChannel := by
    by_cases hidle : s.openState = .idle
    · exact ⟨s.nextChannel, s.nextChannel + 1, by rw [if_pos hidle], by rw [if_pos hidle]⟩
    · exact ⟨s.openLocalChannel, s.nextChannel, by rw [if_neg hidle], by rw [if_neg hidle]⟩
  obtain ⟨hnumbered, hchannel⟩ := hlocal
  have hpolls : Polls s (webssh2Requestshell s poll).2 poll (.channelOpen localChannel)
      s.openState (webssh2Requestshell s poll).1 := by
    unfold webssh2Requestshell channelOpen
    dsimp only
    rw [hnumbered]
    refine ⟨by simp only [Login.current, hphase, hchannel], rfl, rfl, rfl, ?_, ?_⟩
    · intro request' state' hcurrent
      simp only [Login.current, hphase] at hcurrent
      exact (Prod.mk.inj (Option.some.inj hcurrent)).2.symm
    · generalize ((LoginRequest.channelOpen localChannel).poll s.session s.openState poll).1 = awaited
      cases awaited with
      | found m => cases m <;> simp [LoginRequest.Grants]
      | eagain => simp
      | failed => simp
  exact hpolls.onceInv (by rw [hphase]; rfl) hinv hends

theorem loginStep_inv (s : Login) (e : LoginEvent) (hinv : OnceInv s) (hends : StepEnds s e) :
    OnceInv (loginStep s e) := by
  cases e with
  | timer poll =>
    cases hphase : s.phase with
    | authcheck =>
      simp only [loginStep, hphase]
      exact queueAuthcheck_inv hphase hinv hends
    | authenticate =>
      simp only [loginStep, hphase]
      exact queueAuthenticate_inv hphase hinv hends
    | requestshell =>
      simp only [loginStep, hphase]
      exact queueRequestshell_inv hphase hinv hends
    | setenv => simpa only [loginStep, hphase] using hinv
    | connectFailed => simpa only [loginStep, hphase] using hinv
  | arrives m => exact ⟨⟨hinv.once.sent, hinv.once.refused⟩, hinv.unsent, hinv.later⟩

theorem onceInv_handshaken (username password : List UInt8) :
    OnceInv (handshaken username password) := by
  refine ⟨⟨fun phase => ?_, ?_⟩, fun _ _ _ _ => rfl, fun _ _ => rfl⟩
  · change 0 ≤ 1
    omega
  · intro request m hmem
    exact absurd hmem List.not_mem_nil

/-- A poll during which packets can be read, and one during a key exchange. -/
def calm : Poll := ⟨false, 10, false⟩
def rekeying : Poll := ⟨true, 10, false⟩

end Jterm.Ssh
