import Jterm.Ssh.Startup

/-!
The terminal's size after the start-up. Window changes reuse the state of pty-req, so
the first one is sent as such only if setterm's single poll brought that state back
to idle, which takes a reply that was already there: the env's.
-/
namespace Jterm.Ssh

open Runs

/-- The calls of webssh2_resize, one after the other. -/
def resizes (s : Startup) (sizes : List (UInt32 × UInt32)) : Startup :=
  sizes.foldl (fun s size => webssh2Resize s size.1 size.2) s

def windowChanges (sizes : List (UInt32 × UInt32)) : List Request :=
  sizes.map fun size => .windowChange size.1 size.2

/-- Each call sends one window-change with its own size. -/
def SizesSent (s : Startup) : Prop :=
  ∀ sizes, (resizes s sizes).session.requests = s.session.requests ++ windowChanges sizes

/-- The poll of setterm sends its request and finds a reply, which is not its own. -/
def SettermFinds (s : Startup) : StartupEvent → Prop
  | .timer poll =>
      s.phase = .setterm ∧ poll.kex = false ∧ (available s.session poll).isSome = true
  | _ => False

def PastSetterm (s : Startup) : Prop := s.phase ≠ .setenv ∧ s.phase ≠ .setterm

theorem queueGetshell_phase (s : Startup) (poll : Poll) (hphase : s.phase = .getshell) :
    PastSetterm (queueGetshell s poll) ∧ (queueGetshell s poll).reqPtyState = s.reqPtyState := by
  unfold queueGetshell PastSetterm
  split
  dsimp only
  split
  · simp
  · split <;> simp [hphase]

theorem startupStep_past (s : Startup) (e : StartupEvent) (h : PastSetterm s) :
    PastSetterm (startupStep s e) ∧ (startupStep s e).reqPtyState = s.reqPtyState := by
  cases e with
  | timer poll =>
    cases hphase : s.phase with
    | setenv => exact absurd hphase h.1
    | setterm => exact absurd hphase h.2
    | getshell =>
      simp only [startupStep, hphase]
      exact queueGetshell_phase s poll hphase
    | reading => simp [startupStep, hphase, PastSetterm]
    | stopped => simp [startupStep, hphase, PastSetterm]
  | replyArrives success => exact ⟨h, rfl⟩
  | otherArrives => exact ⟨h, rfl⟩
  | otherReads n => exact ⟨h, rfl⟩

theorem run_past (s : Startup) (es : List StartupEvent) (h : PastSetterm s) :
    (run startupStep s es).reqPtyState = s.reqPtyState :=
  (invariant_of_step startupStep
    (fun t => PastSetterm t ∧ t.reqPtyState = s.reqPtyState)
    (fun t e ht => ⟨(startupStep_past t e ht.1).1, (startupStep_past t e ht.1).2.trans ht.2⟩)
    es ⟨h, rfl⟩).2

theorem queueSetterm_state (s : Startup) (poll : Poll) (hidle : s.reqPtyState = .idle) :
    PastSetterm (queueSetterm s poll) ∧ ((queueSetterm s poll).reqPtyState = .idle ↔
      poll.kex = false ∧ (available s.session poll).isSome = true) := by
  refine ⟨by simp [queueSetterm, PastSetterm], ?_⟩
  change (channelRequest s.session s.reqPtyState (.ptyReq 80 24) poll).2.1 = .idle ↔ _
  rw [hidle]
  cases hkex : poll.kex with
  | true => simp [channelRequest_kex s.session .idle _ poll (by decide) hkex]
  | false =>
    rw [channelRequest_send s.session .idle _ poll (by decide) hkex]
    obtain ⟨-, -, hresult⟩ := awaitReply_spec
      { s.session with requests := s.session.requests ++ [.ptyReq 80 24] } false poll
    rw [show available { s.session with requests := s.session.requests ++ [.ptyReq 80 24] } poll =
      available s.session poll from rfl] at hresult
    cases havail : available s.session poll with
    | some r =>
      rw [havail] at hresult
      simp [(Prod.mk.inj hresult).2]
    | none =>
      rw [havail] at hresult
      simp [(Prod.mk.inj hresult).2]

def BeforeSetterm (s : Startup) : Prop :=
  (s.phase = .setenv ∨ s.phase = .setterm) ∧ s.reqPtyState = .idle

/-- A step before setterm's poll is that poll or leaves it to come. -/
theorem startupStep_before (s : Startup) (e : StartupEvent) (h : BeforeSetterm s) :
    BeforeSetterm (startupStep s e) ∧ ¬ SettermFinds s e ∨
      PastSetterm (startupStep s e) ∧
        ((startupStep s e).reqPtyState = .idle ↔ SettermFinds s e) := by
  obtain ⟨hphase, hidle⟩ := h
  cases e with
  | timer poll =>
    rcases hphase with hphase | hphase
    · left
      simp only [startupStep, hphase]
      exact ⟨⟨Or.inr rfl, hidle⟩, by simp [SettermFinds, hphase]⟩
    · right
      simp only [startupStep, hphase]
      obtain ⟨hpast, hiff⟩ := queueSetterm_state s poll hidle
      exact ⟨hpast, by simp [hiff, SettermFinds, hphase]⟩
  | replyArrives success => exact Or.inl ⟨⟨hphase, hidle⟩, id⟩
  | otherArrives => exact Or.inl ⟨⟨hphase, hidle⟩, id⟩
  | otherReads n => exact Or.inl ⟨⟨hphase, hidle⟩, id⟩

/-- What setterm's poll finds decides the state the run leaves the pty-req in. -/
theorem run_reqPtyState (s : Startup) (es : List StartupEvent) (h : BeforeSetterm s)
    (hpast : PastSetterm (run startupStep s es)) :
    (run startupStep s es).reqPtyState = .idle ↔ SomeStep startupStep SettermFinds s es := by
  induction es generalizing s with
  | nil =>
    obtain ⟨hphase | hphase, -⟩ := h
    · exact absurd hphase hpast.1
    · exact absurd hphase hpast.2
  | cons e es ih =>
    rcases startupStep_before s e h with ⟨hbefore, hnot⟩ | ⟨hnext, hiff⟩
    · rw [SomeStep, or_iff_right hnot]
      exact ih (startupStep s e) hbefore hpast
    · have hlater : ¬ SomeStep startupStep SettermFinds (startupStep s e) es := by
        apply not_someStep startupStep PastSetterm
          (fun t f ht => (startupStep_past t f ht).1) _ es hnext
        intro t f ht hfinds
        cases f with
        | timer poll => exact ht.2 hfinds.1
        | replyArrives success => exact hfinds
        | otherArrives => exact hfinds
        | otherReads n => exact hfinds
      rw [SomeStep, or_iff_left hlater, ← hiff]
      change (run startupStep (startupStep s e) es).reqPtyState = .idle ↔ _
      rw [run_past (startupStep s e) es hnext]

/-- In state idle every resize is sent, and leaves idle behind. -/
theorem resizes_idle (s : Startup) (h : s.reqPtyState = .idle) : SizesSent s := by
  intro sizes
  induction sizes generalizing s with
  | nil => simp [resizes, windowChanges]
  | cons size sizes ih =>
    have hnext : (webssh2Resize s size.1 size.2).reqPtyState = .idle := by
      simp [webssh2Resize, channelRequestPtySize, h]
    have hsent : (webssh2Resize s size.1 size.2).session.requests =
        s.session.requests ++ [.windowChange size.1 size.2] := by
      simp [webssh2Resize, channelRequestPtySize, h]
    change (resizes (webssh2Resize s size.1 size.2) sizes).session.requests = _
    rw [ih _ hnext, hsent, windowChanges, windowChanges, List.map_cons, List.append_assoc,
      List.singleton_append]

/-- In another state the first resize sends the old pty-req or nothing. -/
theorem sizesSent_iff_idle (s : Startup) : SizesSent s ↔ s.reqPtyState = .idle := by
  refine ⟨fun h => ?_, resizes_idle s⟩
  have hone := h [(80, 24)]
  cases hstate : s.reqPtyState with
  | idle => rfl
  | created =>
    simp [resizes, webssh2Resize, channelRequestPtySize, hstate, windowChanges] at hone
  | sent => simp [resizes, webssh2Resize, channelRequestPtySize, hstate, windowChanges] at hone

/-- After a start-up that reached the reader, all sizes reach the server exactly when
setterm's poll could send and found a reply. -/
theorem sizesSent_iff_settermFinds (es : List StartupEvent)
    (hreading : (run startupStep openedSession es).phase = .reading) :
    SizesSent (run startupStep openedSession es) ↔
      SomeStep startupStep SettermFinds openedSession es := by
  rw [sizesSent_iff_idle]
  apply run_reqPtyState openedSession es ⟨Or.inl rfl, rfl⟩
  simp [PastSetterm, hreading]

theorem sizesSent_lateGrants : SizesSent (run startupStep openedSession lateGrants) :=
  (sizesSent_iff_settermFinds lateGrants (by decide)).mpr
    (Or.inr (Or.inr (Or.inl ⟨by decide, by decide, by decide⟩)))

/-- With no reply before setterm polls, the first resize is not sent. -/
theorem first_resize_lost :
    (run startupStep openedSession [.timer readsAll, .timer readsAll, .replyArrives true,
        .replyArrives true, .timer readsAll]).phase = .reading ∧
      ¬ SizesSent (run startupStep openedSession [.timer readsAll, .timer readsAll,
        .replyArrives true, .replyArrives true, .timer readsAll]) := by
  refine ⟨by decide, ?_⟩
  rw [sizesSent_iff_idle]
  decide

end Jterm.Ssh
