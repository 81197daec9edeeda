import Jterm.Ssh.ChannelRequests

/-!
What the reply queue does to the start-up. A reply that one request abandoned is
taken by the next one, so `webssh2_getshell` may be told of an env or a pty-req, and
what setterm's only poll finds decides the state in which window-change starts.
-/
namespace Jterm.Ssh

open Runs

/-- The reply that requirev finds in this poll. -/
def available (s : Session) (poll : Poll) : Option Reply :=
  (askv s.packets).or (readReply poll.reads s.incoming).1

/-- The shell request has been granted and the reply is here. -/
def ShellGranted (s : Session) : Prop := ⟨.shell, true⟩ ∈ s.replies

/-- At most one shell request goes out, and the reader is not installed before the
server has granted it. -/
def Paired (s : Startup) : Prop :=
  s.session.requests.count .shell ≤ 1 ∧ (s.phase = .reading → ShellGranted s.session)

/-- A getshell poll with its request out: a SUCCESS it finds finds the shell granted, and
only the last poll ends the wait in another way. -/
def PollPairs (s : Startup) (poll : Poll) : Prop :=
  s.phase = .getshell → s.processState = .sent ∨ poll.kex = false →
    match available s.session poll with
    | some r => if r.success then ShellGranted s.session else 25 ≤ s.c
    | none => s.processState = .sent → poll.timedOut = true → 25 ≤ s.c

def StepPairs (s : Startup) : StartupEvent → Prop
  | .timer poll => PollPairs s poll
  | _ => True

/-- Before the shell request is out there is none on the channel. -/
structure ShellInv (s : Startup) : Prop where
  paired : Paired s
  unsent : s.phase = .getshell → s.processState ≠ .sent → .shell ∉ s.session.requests
  early : s.phase = .setenv ∨ s.phase = .setterm →
    s.processState = .idle ∧ .shell ∉ s.session.requests

/-- requirev changes neither the requests nor the record of replies. -/
theorem requirev_spec (s : Session) (resumed : Bool) (poll : Poll) :
    (requirev s resumed poll).2.requests = s.requests ∧
      (requirev s resumed poll).2.replies = s.replies ∧
      (requirev s resumed poll).1 = match available s poll with
        | some r => .found r
        | none => if resumed && poll.timedOut then .timeout else .eagain := by
  unfold requirev available
  cases haskv : askv s.packets with
  | some r => simp
  | none =>
    cases hread : readReply poll.reads s.incoming with
    | mk found incoming => cases found <;> simp

theorem awaitReply_spec (s : Session) (resumed : Bool) (poll : Poll) :
    (awaitReply s resumed poll).2.2.requests = s.requests ∧
      (awaitReply s resumed poll).2.2.replies = s.replies ∧
      ((awaitReply s resumed poll).1, (awaitReply s resumed poll).2.1) =
        match available s poll with
        | some r => (if r.success then .success else .denied, .idle)
        | none => if resumed && poll.timedOut then (.failed, .idle) else (.eagain, .sent) := by
  obtain ⟨hrequests, hreplies, hresult⟩ := requirev_spec s resumed poll
  unfold awaitReply
  cases hreq : requirev s resumed poll with
  | mk required s' =>
    rw [hreq] at hrequests hreplies hresult
    dsimp only at hrequests hreplies hresult
    cases havail : available s poll with
    | some r =>
      rw [havail] at hresult
      subst hresult
      exact ⟨hrequests, hreplies, rfl⟩
    | none =>
      rw [havail] at hresult
      dsimp only at hresult
      cases hout : resumed && poll.timedOut <;> rw [hout] at hresult <;> subst hresult <;>
        exact ⟨hrequests, hreplies, rfl⟩

/-- A request function in state sent. -/
theorem channelRequest_sent (s : Session) (request : Request) (poll : Poll) :
    channelRequest s .sent request poll = awaitReply s true poll := rfl

theorem channelRequest_kex (s : Session) (state : RequestState) (request : Request) (poll : Poll)
    (hstate : state ≠ .sent) (hkex : poll.kex = true) :
    channelRequest s state request poll = (.eagain, .created, s) := by
  cases state with
  | idle => simp [channelRequest, hkex]
  | created => simp [channelRequest, hkex]
  | sent => exact absurd rfl hstate

theorem channelRequest_send (s : Session) (state : RequestState) (request : Request) (poll : Poll)
    (hstate : state ≠ .sent) (hkex : poll.kex = false) :
    channelRequest s state request poll =
      awaitReply { s with requests := s.requests ++ [request] } false poll := by
  cases state with
  | idle => simp [channelRequest, hkex]
  | created => simp [channelRequest, hkex]
  | sent => exact absurd rfl hstate

/-- A request other than shell adds no shell request. -/
theorem channelRequest_shell_notMem {s : Session} (state : RequestState) (request : Request)
    (poll : Poll) (hrequest : request ≠ .shell) (h : Request.shell ∉ s.requests) :
    Request.shell ∉ (channelRequest s state request poll).2.2.requests := by
  by_cases hstate : state = .sent
  · rw [hstate, channelRequest_sent, (awaitReply_spec s true poll).1]
    exact h
  · cases hkex : poll.kex with
    | true =>
      rw [channelRequest_kex s state request poll hstate hkex]
      exact h
    | false =>
      rw [channelRequest_send s state request poll hstate hkex, (awaitReply_spec _ false poll).1]
      simp [h, Ne.symm hrequest]

/-- A getshell poll that leaves one shell request at most is fine if it ends in reading
only with the shell granted and waits on only with the request out. -/
theorem shellInv_of_poll {s : Startup} {poll : Poll} {returned : Returned} {state : RequestState}
    {session : Session} (hphase : s.phase = .getshell)
    (hresult : channelProcessStartup s.session s.processState poll = (returned, state, session))
    (hcount : session.requests.count .shell ≤ 1)
    (hgranted : returned = .success → ShellGranted session)
    (hwaits : returned ≠ .success → s.c < 25 → state ≠ .sent → .shell ∉ session.requests) :
    ShellInv (queueGetshell s poll) := by
  simp only [queueGetshell, hresult]
  by_cases hsuccess : returned = .success
  · rw [if_pos hsuccess]
    exact ⟨⟨hcount, fun _ => hgranted hsuccess⟩, by simp, by simp⟩
  · rw [if_neg hsuccess]
    by_cases hc : s.c < 25
    · rw [if_pos hc]
      refine ⟨⟨hcount, fun hreading => ?_⟩, fun _ => hwaits hsuccess hc, fun hearly => ?_⟩
      · simp [hphase] at hreading
      · simp [hphase] at hearly
    · rw [if_neg hc]
      exact ⟨⟨hcount, by simp⟩, by simp, by simp⟩

theorem queueGetshell_inv {s : Startup} {poll : Poll} (hphase : s.phase = .getshell)
    (h : ShellInv s) (hok : PollPairs s poll) : ShellInv (queueGetshell s poll) := by
  by_cases hkex : s.processState ≠ .sent ∧ poll.kex = true
  · have hnone := h.unsent hphase hkex.1
    apply shellInv_of_poll hphase (channelRequest_kex _ _ _ poll hkex.1 hkex.2) h.paired.1
    · simp
    · intro _ _ _
      exact hnone
  · have hout : s.processState = .sent ∨ poll.kex = false := by
      by_cases hsent : s.processState = .sent
      · exact Or.inl hsent
      · right
        by_contra hk
        exact hkex ⟨hsent, by simpa using hk⟩
    have hpoll := hok hphase hout
    -- the session in which the reply is awaited
    obtain ⟨s₁, hawait, hreplies, hqueue, hincoming, hcount⟩ : ∃ s₁ : Session,
        channelProcessStartup s.session s.processState poll =
          awaitReply s₁ (s.processState = .sent) poll ∧ s₁.replies = s.session.replies ∧
        s₁.packets = s.session.packets ∧ s₁.incoming = s.session.incoming ∧
        s₁.requests.count .shell ≤ 1 := by
      by_cases hsent : s.processState = .sent
      · refine ⟨s.session, ?_, rfl, rfl, rfl, h.paired.1⟩
        simp only [hsent, channelProcessStartup, channelRequest_sent, decide_true]
      · have hk : poll.kex = false := hout.resolve_left hsent
        refine ⟨{ s.session with requests := s.session.requests ++ [.shell] }, ?_, rfl, rfl, rfl, ?_⟩
        · simp only [channelProcessStartup, channelRequest_send _ _ _ poll hsent hk, hsent,
            decide_false]
        · have := List.count_eq_zero.mpr (h.unsent hphase hsent)
          simp [this]
    have havail : available s₁ poll = available s.session poll := by
      simp only [available, hqueue, hincoming]
    obtain ⟨hrequests, hreplies', hresult⟩ := awaitReply_spec s₁ (s.processState = .sent) poll
    generalize awaitReply s₁ (s.processState = .sent) poll = triple at hawait hrequests hreplies' hresult
    obtain ⟨returned, state, session⟩ := triple
    dsimp only at hrequests hreplies' hresult
    rw [havail] at hresult
    apply shellInv_of_poll hphase hawait
    · rw [hrequests]
      exact hcount
    · intro hsuccess
      have hgranted : ShellGranted s.session := by
        cases hcase : available s.session poll with
        | some r =>
          rw [hcase] at hresult hpoll
          have hr : r.success = true := by
            by_contra hnot
            rw [Prod.mk.injEq, hsuccess, if_neg hnot] at hresult
            exact absurd hresult.1 (by decide)
          simpa [hr] using hpoll
        | none =>
          rw [hcase] at hresult
          dsimp only at hresult
          split at hresult <;> rw [Prod.mk.injEq, hsuccess] at hresult <;>
            exact absurd hresult.1 (by decide)
      unfold ShellGranted
      rw [hreplies', hreplies]
      exact hgranted
    · intro hfailed hc hstate
      cases hcase : available s.session poll with
      | some r =>
        rw [hcase] at hresult hpoll
        by_cases hr : r.success = true
        · rw [Prod.mk.injEq, if_pos hr] at hresult
          exact absurd hresult.1 hfailed
        · dsimp only at hpoll
          rw [if_neg hr] at hpoll
          omega
      | none =>
        rw [hcase] at hresult hpoll
        dsimp only at hresult hpoll
        split at hresult
        · rename_i hlate
          rw [Bool.and_eq_true, decide_eq_true_eq] at hlate
          have := hpoll hlate.1 hlate.2
          omega
        · rw [Prod.mk.injEq] at hresult
          exact absurd hresult.2 hstate

theorem startupStep_inv (s : Startup) (e : StartupEvent) (h : ShellInv s) (hok : StepPairs s e) :
    ShellInv (startupStep s e) := by
  -- arrivals and other reads leave the requests alone and lose no reply
  have hsession : ∀ session : Session, session.requests = s.session.requests →
      (ShellGranted s.session → ShellGranted session) → ShellInv { s with session := session } := by
    intro session hrequests hgranted
    refine ⟨⟨?_, fun hreading => hgranted (h.paired.2 hreading)⟩, ?_, ?_⟩
    · rw [hrequests]
      exact h.paired.1
    · intro hphase hstate
      rw [hrequests]
      exact h.unsent hphase hstate
    · intro hphase
      rw [hrequests]
      exact h.early hphase
  cases e with
  | timer poll =>
    cases hphase : s.phase with
    | setenv =>
      simp only [startupStep, hphase]
      obtain ⟨hidle, hnone⟩ := h.early (Or.inl hphase)
      have hnext := channelRequest_shell_notMem s.setenvState .env poll (by simp) hnone
      refine ⟨⟨?_, by simp [queueSetenv]⟩, by simp [queueSetenv], fun _ => ⟨hidle, hnext⟩⟩
      rw [show (queueSetenv s poll).session.requests.count .shell = 0 from
        List.count_eq_zero.mpr hnext]
      omega
    | setterm =>
      simp only [startupStep, hphase]
      obtain ⟨hidle, hnone⟩ := h.early (Or.inr hphase)
      have hnext := channelRequest_shell_notMem s.reqPtyState (.ptyReq 80 24) poll
        (by simp) hnone
      refine ⟨⟨?_, by simp [queueSetterm]⟩, fun _ _ => hnext, by simp [queueSetterm]⟩
      rw [show (queueSetterm s poll).session.requests.count .shell = 0 from
        List.count_eq_zero.mpr hnext]
      omega
    | getshell =>
      simp only [startupStep, hphase]
      exact queueGetshell_inv hphase h hok
    | reading => simpa only [startupStep, hphase] using h
    | stopped => simpa only [startupStep, hphase] using h
  | replyArrives success =>
    apply hsession
    · unfold arrive
      split <;> rfl
    · intro hgranted
      unfold arrive
      split
      · exact hgranted
      · exact List.mem_append_left _ hgranted
  | otherArrives => exact hsession _ rfl id
  | otherReads n => exact hsession _ rfl id

theorem shellInv_opened : ShellInv openedSession :=
  ⟨⟨by simp [openedSession], by simp [openedSession]⟩, by simp [openedSession],
    by simp [openedSession]⟩

/-- In a run whose getshell polls find no reply but after the shell was granted, at most
one shell request goes out and the reader waits for the grant. -/
theorem run_paired (es : List StartupEvent) (hok : AllSteps startupStep StepPairs openedSession es)
    (pre : List StartupEvent) (hpre : pre <+: es) :
    Paired (run startupStep openedSession pre) :=
  (invariant_along startupStep startupStep_inv shellInv_opened hok hpre).paired

/-- A poll with no key exchange and everything that has arrived to read. -/
def readsAll : Poll := ⟨false, 10, false⟩

/-- The env is refused before setterm polls, pty-req and shell are granted together. -/
def lateGrants : List StartupEvent :=
  [.timer readsAll, .replyArrives false, .timer readsAll, .timer readsAll, .replyArrives true,
    .replyArrives true, .timer readsAll]

theorem run_paired_lateGrants :
    Paired (run startupStep openedSession lateGrants) ∧
      (run startupStep openedSession lateGrants).phase = .reading :=
  ⟨run_paired lateGrants
    ⟨fun h _ => absurd h (by decide), trivial, fun h _ => absurd h (by decide),
      fun _ _ h _ => absurd h (by decide), trivial, trivial,
      fun _ _ => by change ShellGranted _; unfold ShellGranted; decide, trivial⟩ _
    List.prefix_rfl, by decide⟩

/-- The grant of the env makes getshell succeed before the shell is answered, and two
refusals make it send a second shell request. -/
theorem run_not_paired :
    ¬ Paired (run startupStep openedSession
        [.timer readsAll, .timer readsAll, .replyArrives true, .timer readsAll]) ∧
      ¬ Paired (run startupStep openedSession
        [.timer readsAll, .timer readsAll, .replyArrives false, .timer readsAll,
          .timer readsAll]) := by
  unfold Paired ShellGranted
  decide

end Jterm.Ssh
