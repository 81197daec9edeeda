import Jterm.Lib.Runs
import Mathlib.Data.Int.Notation

/-!
The connection sequence of webssh2_interface.js: nine phases that poll with timers, share
the retry counter `c` and the callback variable `m_on_recv`, and end in `queue_read`. The
results of the webssh2 calls and the close of the socket come from outside. A retried
`queue_connect` is called without its argument, so what `queue_read` installs is the
callback only where the first connect worked.
-/
namespace Jterm.Page

open Runs

/-- The webssh2 calls of the sequence, in its order. -/
inductive SshCall
  | connect
  | handshake
  | fingerprint
  | authcheck
  | authenticate
  | requestshell
  | setenv
  | setterm
  | getshell
  deriving DecidableEq, Repr

/-- `jss_recv_callback`: the number it starts as, the empty function of `queue_connect`, or
what `queue_read` installed, where `none` is `undefined`. -/
inductive RecvCallback (F : Type*)
  | number
  | empty
  | installed (callback : Option F)
  deriving DecidableEq, Repr

/-- The globals of the sequence; `timers` are the pending calls with their delays, `calls`
the calls made with what they returned, `failures` the texts given to `connect_fail`. -/
structure Sequence (F : Type*) where
  c : ℕ
  mOnRecv : Option F
  recvCallback : RecvCallback F
  jssClosed : Bool
  timers : List (SshCall × ℕ)
  calls : List (SshCall × ℤ)
  failures : List String
  deriving DecidableEq, Repr

namespace Sequence

variable {F : Type*}

def setTimeout (s : Sequence F) (call : SshCall) (delay : ℕ) : Sequence F :=
  { s with timers := s.timers ++ [(call, delay)] }

def connectFail (s : Sequence F) (err : String) : Sequence F :=
  { s with failures := s.failures ++ [err] }

def ccall (s : Sequence F) (call : SshCall) (result : ℤ) : Sequence F :=
  { s with calls := s.calls ++ [(call, result)] }

def queueConnect (s : Sequence F) (onRecvIn : Option F) : Sequence F :=
  { s with recvCallback := .empty, mOnRecv := onRecvIn }.setTimeout .connect 25

def queueHandshake (s : Sequence F) : Sequence F := s.setTimeout .handshake 100

def queueAuthcheck (s : Sequence F) : Sequence F := s.setTimeout .authcheck 100

def queueAuthenticate (s : Sequence F) : Sequence F := s.setTimeout .authenticate 100

def queueRequestshell (s : Sequence F) : Sequence F := s.setTimeout .requestshell 100

def queueSetenv (s : Sequence F) : Sequence F := s.setTimeout .setenv 25

def queueSetterm (s : Sequence F) : Sequence F := s.setTimeout .setterm 25

def queueGetshell (s : Sequence F) : Sequence F := s.setTimeout .getshell 100

def queueRead (s : Sequence F) : Sequence F :=
  { s with recvCallback := .installed s.mOnRecv }

/-- The timer of `queue_connect`; the retry leaves the argument out. -/
def connectTimer (s : Sequence F) (result : ℤ) : Sequence F :=
  if result ≠ 0 then
    if s.c < 20 then
      let s := if s.jssClosed then s else s.queueConnect none
      { s with c := s.c + 1 }
    else s.connectFail "connect failed"
  else
    let s := { s with c := 0 }
    if s.jssClosed then s else s.queueHandshake

def websshPhase2 (s : Sequence F) (fingerprint : ℤ) : Sequence F :=
  { s.ccall .fingerprint fingerprint with c := 0 }.queueAuthcheck

/-- The timer of `queue_handshake`; only here the closed socket comes before the counter. -/
def handshakeTimer (s : Sequence F) (result fingerprint : ℤ) : Sequence F :=
  if result ≠ 0 then
    if s.jssClosed then s
    else if s.c < 100 then
      let s := s.queueHandshake
      { s with c := s.c + 1 }
    else s.connectFail "handshake failed"
  else
    let s := { s with c := 0 }
    if s.jssClosed then s else s.websshPhase2 fingerprint

/-- The timers from `queue_authcheck` on: 0 is a failure, and a closed socket ends the
retries only. -/
def pollTimer (s : Sequence F) (limit : ℕ) (again next : Sequence F → Sequence F)
    (err : String) (result : ℤ) : Sequence F :=
  if result = 0 then
    if s.c < limit then
      let s := if s.jssClosed then s else again s
      { s with c := s.c + 1 }
    else s.connectFail err
  else next { s with c := 0 }

def authcheckTimer (s : Sequence F) (result : ℤ) : Sequence F :=
  s.pollTimer 50 queueAuthcheck queueAuthenticate "authcheck failed" result

def authenticateTimer (s : Sequence F) (result : ℤ) : Sequence F :=
  s.pollTimer 50 queueAuthenticate queueRequestshell "authentication failed" result

def requestshellTimer (s : Sequence F) (result : ℤ) : Sequence F :=
  s.pollTimer 50 queueRequestshell queueSetenv "requesting shell failed" result

def setenvTimer (s : Sequence F) (result : ℤ) : Sequence F :=
  s.pollTimer 25 queueSetenv queueSetterm "setenv failed" result

def settermTimer (s : Sequence F) (result : ℤ) : Sequence F :=
  s.pollTimer 25 queueSetterm queueGetshell "setterm failed" result

def getshellTimer (s : Sequence F) (result : ℤ) : Sequence F :=
  s.pollTimer 25 queueGetshell queueRead "failed to get shell" result

/-- The function of a timer, after its call returned. -/
def afterCall (s : Sequence F) (result fingerprint : ℤ) : SshCall → Sequence F
  | .connect => s.connectTimer result
  | .handshake => s.handshakeTimer result fingerprint
  | .fingerprint => s
  | .authcheck => s.authcheckTimer result
  | .authenticate => s.authenticateTimer result
  | .requestshell => s.requestshellTimer result
  | .setenv => s.setenvTimer result
  | .setterm => s.settermTimer result
  | .getshell => s.getshellTimer result

end Sequence

/-- A pending timer fires, and its call returns `result`; the socket may be found closed
during the call. Or it closes between two turns. -/
inductive SequenceEvent
  | fires (i : ℕ) (result fingerprint : ℤ) (closes : Bool)
  | closes
  deriving DecidableEq, Repr

namespace Sequence

variable {F : Type*}

/-- The page as it is loaded, and `queue_connect(f)`. -/
def start (f : F) : Sequence F :=
  (⟨0, none, .number, false, [], [], []⟩ : Sequence F).queueConnect (some f)

def step (s : Sequence F) : SequenceEvent → Sequence F
  | .fires i result fingerprint closes =>
    match s.timers[i]? with
    | some (call, _) =>
      { s with timers := s.timers.eraseIdx i, jssClosed := s.jssClosed || closes }.ccall
        call result |>.afterCall result fingerprint call
    | none => s
  | .closes => { s with jssClosed := true }

end Sequence

/-- What a call reports as success: 0 in the first two phases, otherwise anything but 0.
No result of the fingerprint is a failure. -/
def Reports (call : SshCall) (result : ℤ) : Prop :=
  match call with
  | .connect | .handshake => result = 0
  | .fingerprint => True
  | _ => result ≠ 0

/-- The call that a success leads to. -/
def SshCall.next : SshCall → Option SshCall
  | .connect => some .handshake
  | .handshake => some .fingerprint
  | .fingerprint => some .authcheck
  | .authcheck => some .authenticate
  | .authenticate => some .requestshell
  | .requestshell => some .setenv
  | .setenv => some .setterm
  | .setterm => some .getshell
  | .getshell => none

/-- Connect comes first; a failed call may be made again, a successful one leads on. -/
def Due (calls : List (SshCall × ℤ)) (call : SshCall) : Prop :=
  match calls.getLast? with
  | none => call = .connect
  | some (last, result) =>
    (Reports last result → last.next = some call) ∧ (¬ Reports last result → call = last)

/-- Every call was due when it was made. -/
inductive InOrder : List (SshCall × ℤ) → Prop
  | nil : InOrder []
  | snoc {calls : List (SshCall × ℤ)} {call : SshCall} (result : ℤ) :
      InOrder calls → Due calls call → InOrder (calls ++ [(call, result)])

def Sequence.ReaderInstalled {F : Type*} (s : Sequence F) : Prop :=
  ∃ callback, s.recvCallback = .installed callback

/-- The connection sequence is orderly: one timer at most, each phase after the one before
it succeeded, a bounded number of calls, exactly one end, and `f` the callback. -/
structure Sequence.Orderly {F : Type*} (f : F) (s : Sequence F) : Prop where
  oneTimer : s.timers.length ≤ 1
  inOrder : InOrder s.calls
  due : ∀ timer ∈ s.timers, Due s.calls timer.1
  granted : s.ReaderInstalled → ∃ result, s.calls.getLast? = some (.getshell, result) ∧ result ≠ 0
  bounded : s.calls.length + s.timers.length ≤ 354
  running : s.timers ≠ [] → ¬ s.ReaderInstalled ∧ s.failures = []
  ended : s.timers = [] →
    s.ReaderInstalled ∧ s.failures = [] ∨ ¬ s.ReaderInstalled ∧ s.failures.length = 1 ∨
      ¬ s.ReaderInstalled ∧ s.failures = [] ∧ s.jssClosed = true
  callback : ∀ callback, s.recvCallback = .installed callback → callback = some f

/-- A shell is not granted after a connect that reported a failure. -/
def FirstConnectWorks {F : Type*} (s : Sequence F) : SequenceEvent → Prop
  | .fires i result _ _ =>
    (∃ delay, s.timers[i]? = some (.getshell, delay)) → result ≠ 0 →
      ∀ call ∈ s.calls, call.1 = .connect → call.2 = 0
  | .closes => True

/-- How often a phase retries. -/
def SshCall.limit : SshCall → ℕ
  | .connect => 20
  | .handshake => 100
  | .fingerprint => 0
  | .authcheck | .authenticate | .requestshell => 50
  | .setenv | .setterm | .getshell => 25

/-- The most calls made before a phase starts. -/
def SshCall.before : SshCall → ℕ
  | .connect => 0
  | .handshake => 21
  | .fingerprint => 122
  | .authcheck => 123
  | .authenticate => 174
  | .requestshell => 225
  | .setenv => 276
  | .setterm => 302
  | .getshell => 328

/-- `m_on_recv` is the callback until a connect fails, and then nothing. -/
def FromConnects {F : Type*} (f : F) (calls : List (SshCall × ℤ)) (mOnRecv : Option F) : Prop :=
  (∀ call ∈ calls, call.1 = .connect → call.2 = 0) ∧ mOnRecv = some f ∨
    (∃ call ∈ calls, call.1 = .connect ∧ call.2 ≠ 0) ∧ mOnRecv = none

theorem FromConnects.snoc {F : Type*} {f : F} {calls : List (SshCall × ℤ)} {mOnRecv : Option F}
    {last : SshCall × ℤ} (h : FromConnects f calls mOnRecv)
    (hlast : last.1 = .connect → last.2 = 0) : FromConnects f (calls ++ [last]) mOnRecv := by
  rcases h with ⟨hall, hasked⟩ | ⟨⟨call, hmem, hfailed⟩, hasked⟩
  · refine Or.inl ⟨fun call hmem => ?_, hasked⟩
    rcases List.mem_append.mp hmem with hold | hnew
    · exact hall call hold
    · rw [List.mem_singleton.mp hnew]
      exact hlast
  · exact Or.inr ⟨⟨call, List.mem_append_left _ hmem, hfailed⟩, hasked⟩

namespace Sequence

variable {F : Type*} {f : F} {s : Sequence F} {call : SshCall} {result : ℤ}

/-- The call returned and its timer is gone; the callback may be about to be dropped. -/
structure Answered (f : F) (s : Sequence F) (call : SshCall) (result : ℤ) : Prop where
  timers : s.timers = []
  counter : s.c ≤ call.limit
  count : s.calls.length ≤ call.before + s.c + 1
  inOrder : InOrder s.calls
  last : s.calls.getLast? = some (call, result)
  empty : s.recvCallback = .empty
  failures : s.failures = []
  asked : call ≠ .connect ∨ result = 0 → FromConnects f s.calls s.mOnRecv

/-- The timer of a phase is pending. -/
structure Waits (f : F) (s : Sequence F) (call : SshCall) : Prop where
  timer : ∃ delay, s.timers = [(call, delay)]
  polled : call ≠ .fingerprint
  counter : s.c ≤ call.limit
  count : s.calls.length ≤ call.before + s.c
  inOrder : InOrder s.calls
  due : Due s.calls call
  empty : s.recvCallback = .empty
  failures : s.failures = []
  asked : FromConnects f s.calls s.mOnRecv

/-- The reader is in place, with what `m_on_recv` was. -/
structure Reads (f : F) (s : Sequence F) : Prop where
  timers : s.timers = []
  inOrder : InOrder s.calls
  granted : ∃ result, s.calls.getLast? = some (.getshell, result) ∧ result ≠ 0
  count : s.calls.length ≤ 354
  installed : s.recvCallback = .installed s.mOnRecv
  failures : s.failures = []
  asked : FromConnects f s.calls s.mOnRecv

/-- The sequence gave up: one call of `connect_fail`, or none on a closed socket. -/
structure GaveUp (s : Sequence F) : Prop where
  timers : s.timers = []
  inOrder : InOrder s.calls
  count : s.calls.length ≤ 354
  empty : s.recvCallback = .empty
  failures : s.failures.length = 1 ∨ s.failures = [] ∧ s.jssClosed = true

/-- A run without a reader, as every turn but the last one leaves it. -/
def Goes (f : F) (s : Sequence F) : Prop := (∃ call, s.Waits f call) ∨ s.GaveUp

/-- What every run keeps, whatever became of the callback. -/
def Kept (f : F) (s : Sequence F) : Prop := s.Goes f ∨ s.Reads f

end Sequence

theorem SshCall.before_add_limit (call : SshCall) : call.before + call.limit + 1 ≤ 354 := by
  cases call <;> decide

namespace Sequence

variable {F : Type*} {f : F} {s : Sequence F} {call : SshCall} {result : ℤ}

theorem Answered.due_again (h : s.Answered f call result) (hfail : ¬ Reports call result) :
    Due s.calls call := by
  unfold Due
  rw [h.last]
  exact ⟨fun hok => absurd hok hfail, fun _ => rfl⟩

theorem Answered.due_next {next : SshCall} (h : s.Answered f call result)
    (hok : Reports call result) (hnext : call.next = some next) : Due s.calls next := by
  unfold Due
  rw [h.last]
  exact ⟨fun _ => hnext, fun hfail => absurd hok hfail⟩

/-- A timer of a due phase, with the counter it starts from. -/
theorem Answered.wait {again : SshCall} {n delay : ℕ} {mOnRecv : Option F}
    (h : s.Answered f call result) (hdue : Due s.calls again) (hpolled : again ≠ .fingerprint)
    (hn : n ≤ again.limit) (hcount : s.calls.length ≤ again.before + n)
    (hasked : FromConnects f s.calls mOnRecv) :
    Waits f { s.setTimeout again delay with c := n, mOnRecv := mOnRecv } again where
  timer := ⟨delay, by simp [setTimeout, h.timers]⟩
  polled := hpolled
  counter := hn
  count := hcount
  inOrder := h.inOrder
  due := hdue
  empty := h.empty
  failures := h.failures
  asked := hasked

theorem Answered.count_le (h : s.Answered f call result) : s.calls.length ≤ 354 := by
  have hcount := h.count
  have hcounter := h.counter
  have hbound := call.before_add_limit
  omega

theorem Answered.fail (h : s.Answered f call result) (err : String) :
    (s.connectFail err).GaveUp where
  timers := h.timers
  inOrder := h.inOrder
  count := h.count_le
  empty := h.empty
  failures := Or.inl (by simp [connectFail, h.failures])

/-- A closed socket: nothing more is done, whatever the counter is set to. -/
theorem Answered.silent (h : s.Answered f call result) (n : ℕ) (hclosed : s.jssClosed = true) :
    GaveUp { s with c := n } where
  timers := h.timers
  inOrder := h.inOrder
  count := h.count_le
  empty := h.empty
  failures := Or.inr ⟨h.failures, hclosed⟩

/-- A retry leaves the counter one up and the phase as it is. -/
theorem Answered.retry {delay : ℕ} {mOnRecv : Option F} (h : s.Answered f call result)
    (hfail : ¬ Reports call result) (hpolled : call ≠ .fingerprint) (hc : s.c < call.limit)
    (hasked : FromConnects f s.calls mOnRecv) :
    Waits f { s.setTimeout call delay with c := s.c + 1, mOnRecv := mOnRecv } call :=
  h.wait (h.due_again hfail) hpolled hc h.count hasked

/-- A success starts the next phase with the counter at 0. -/
theorem Answered.advance {next : SshCall} {delay : ℕ} (h : s.Answered f call result)
    (hok : Reports call result) (hnext : call.next = some next) (hpolled : next ≠ .fingerprint)
    (hbefore : call.before + call.limit + 1 = next.before)
    (hasked : FromConnects f s.calls s.mOnRecv) :
    Waits f ({ s with c := 0 }.setTimeout next delay) next := by
  have hcount := h.count
  have hcounter := h.counter
  exact h.wait (h.due_next hok hnext) hpolled (Nat.zero_le _) (by omega) hasked

/-- The retry of the connect phase is the one that drops the callback. -/
theorem connectTimer_goes (h : s.Answered f .connect result) :
    Goes f (s.connectTimer result) := by
  unfold connectTimer
  by_cases hresult : result ≠ 0
  · rw [if_pos hresult]
    by_cases hc : s.c < 20
    · rw [if_pos hc]
      by_cases hclosed : s.jssClosed = true
      · rw [if_pos hclosed]
        exact Or.inr (h.silent _ hclosed)
      · have hmem : (SshCall.connect, result) ∈ s.calls := List.mem_of_getLast? h.last
        have hqueue : s.queueConnect none = { s.setTimeout .connect 25 with mOnRecv := none } := by
          unfold queueConnect
          rw [← h.empty]
          rfl
        rw [if_neg hclosed, hqueue]
        exact Or.inl ⟨.connect,
          h.retry hresult (by decide) hc (Or.inr ⟨⟨_, hmem, rfl, hresult⟩, rfl⟩)⟩
    · rw [if_neg hc]
      exact Or.inr (h.fail _)
  · have hok : Reports .connect result := not_not.mp hresult
    rw [if_neg hresult]
    by_cases hclosed : s.jssClosed = true
    · rw [if_pos hclosed]
      exact Or.inr (h.silent _ hclosed)
    · rw [if_neg hclosed]
      exact Or.inl ⟨.handshake, h.advance hok rfl (by decide) rfl (h.asked (Or.inr hok))⟩

/-- The fingerprint is one more call of the handshake's turn. -/
theorem Answered.phase2 (h : s.Answered f .handshake 0) (fingerprint : ℤ) :
    ({ s with c := 0 }.ccall .fingerprint fingerprint).Answered f .fingerprint fingerprint where
  timers := h.timers
  counter := Nat.zero_le _
  count := by
    have hcount := h.count
    have hcounter := h.counter
    simp only [ccall, List.length_append, List.length_singleton, SshCall.before, SshCall.limit] at *
    omega
  inOrder := h.inOrder.snoc fingerprint (h.due_next rfl rfl)
  last := List.getLast?_concat
  empty := h.empty
  failures := h.failures
  asked := fun _ => (h.asked (Or.inr rfl)).snoc (fun hconnect => nomatch hconnect)

theorem handshakeTimer_goes (h : s.Answered f .handshake result) (fingerprint : ℤ) :
    Goes f (s.handshakeTimer result fingerprint) := by
  have hasked : FromConnects f s.calls s.mOnRecv := h.asked (Or.inl (by decide))
  unfold handshakeTimer
  by_cases hresult : result ≠ 0
  · rw [if_pos hresult]
    by_cases hclosed : s.jssClosed = true
    · rw [if_pos hclosed]
      exact Or.inr (h.silent s.c hclosed)
    · rw [if_neg hclosed]
      by_cases hc : s.c < 100
      · rw [if_pos hc]
        exact Or.inl ⟨.handshake, h.retry hresult (by decide) hc hasked⟩
      · rw [if_neg hc]
        exact Or.inr (h.fail _)
  · have hok : result = 0 := not_not.mp hresult
    subst hok
    rw [if_neg hresult]
    by_cases hclosed : s.jssClosed = true
    · rw [if_pos hclosed]
      exact Or.inr (h.silent _ hclosed)
    · rw [if_neg hclosed]
      have hprint := h.phase2 fingerprint
      exact Or.inl ⟨.authcheck,
        hprint.advance trivial rfl (by decide) rfl (hprint.asked (Or.inl (by decide)))⟩

/-- The timers from authcheck on: all that is left to say is where a success leads. -/
theorem pollTimer_goes {limit delay : ℕ} {again next : Sequence F → Sequence F} {err : String}
    (h : s.Answered f call result) (hreports : Reports call result ↔ result ≠ 0)
    (hpolled : call ≠ .fingerprint) (hconnect : call ≠ .connect) (hlimit : limit = call.limit)
    (hagain : again s = s.setTimeout call delay)
    (hnext : result ≠ 0 → Goes f (next { s with c := 0 })) :
    Goes f (s.pollTimer limit again next err result) := by
  have hasked : FromConnects f s.calls s.mOnRecv := h.asked (Or.inl hconnect)
  unfold pollTimer
  by_cases hresult : result = 0
  · have hfail : ¬ Reports call result := fun hok => hreports.mp hok hresult
    rw [if_pos hresult]
    by_cases hc : s.c < limit
    · rw [if_pos hc, hagain]
      by_cases hclosed : s.jssClosed = true
      · rw [if_pos hclosed]
        exact Or.inr (h.silent _ hclosed)
      · rw [if_neg hclosed]
        exact Or.inl ⟨call, h.retry hfail hpolled (hlimit ▸ hc) hasked⟩
    · rw [if_neg hc]
      exact Or.inr (h.fail _)
  · rw [if_neg hresult]
    exact hnext hresult

/-- What a fired timer leaves in every phase, short of the reader. -/
theorem afterCall_goes (h : s.Answered f call result) (hpolled : call ≠ .fingerprint)
    (hmore : call = .getshell → result = 0) (fingerprint : ℤ) :
    Goes f (s.afterCall result fingerprint call) := by
  cases call with
  | connect => exact connectTimer_goes h
  | handshake => exact handshakeTimer_goes h fingerprint
  | fingerprint => exact absurd rfl hpolled
  | authcheck | authenticate | requestshell | setenv | setterm =>
    exact pollTimer_goes h Iff.rfl hpolled (by decide) rfl rfl fun hok =>
      Or.inl ⟨_, h.advance hok rfl (by decide) rfl (h.asked (Or.inl (by decide)))⟩
  | getshell =>
    exact pollTimer_goes h Iff.rfl hpolled (by decide) rfl rfl fun hok => absurd (hmore rfl) hok

theorem afterCall_reads (h : s.Answered f .getshell result) (hok : result ≠ 0)
    (fingerprint : ℤ) : Reads f (s.afterCall result fingerprint .getshell) := by
  have hread : s.afterCall result fingerprint .getshell = { s with c := 0 }.queueRead := if_neg hok
  rw [hread]
  exact {
    timers := h.timers
    inOrder := h.inOrder
    granted := ⟨result, h.last, hok⟩
    count := h.count_le
    installed := rfl
    failures := h.failures
    asked := h.asked (Or.inl (by decide)) }

/-- The state in which a fired timer's function goes on after its call. -/
def answered (s : Sequence F) (call : SshCall) (result : ℤ) (closes : Bool) : Sequence F :=
  { s with timers := [], jssClosed := s.jssClosed || closes }.ccall call result

theorem Waits.answered (h : s.Waits f call) (result : ℤ) (closes : Bool) :
    (s.answered call result closes).Answered f call result where
  timers := rfl
  counter := h.counter
  count := by
    have hcount := h.count
    simp only [Sequence.answered, ccall, List.length_append, List.length_singleton]
    omega
  inOrder := h.inOrder.snoc result h.due
  last := List.getLast?_concat
  empty := h.empty
  failures := h.failures
  asked := fun hkeeps => h.asked.snoc fun hconnect => hkeeps.resolve_left fun hne => hne hconnect

/-- Only the one pending timer can fire. -/
theorem Waits.step_fires (h : s.Waits f call) (i : ℕ) (result fingerprint : ℤ) (closes : Bool) :
    (∃ delay, s.timers[i]? = some (call, delay) ∧
        s.step (.fires i result fingerprint closes) =
          (s.answered call result closes).afterCall result fingerprint call) ∨
      s.timers[i]? = none ∧ s.step (.fires i result fingerprint closes) = s := by
  obtain ⟨delay, htimer⟩ := h.timer
  cases i with
  | zero => exact Or.inl ⟨delay, by rw [htimer]; rfl, by simp [step, htimer, Sequence.answered]⟩
  | succ i => exact Or.inr ⟨by simp [htimer], by simp [step, htimer]⟩

theorem step_fires_idle (htimers : s.timers = []) (i : ℕ) (result fingerprint : ℤ)
    (closes : Bool) : s.step (.fires i result fingerprint closes) = s := by
  simp [step, htimers]

theorem Goes.closes (h : s.Goes f) : (s.step .closes).Goes f := by
  rcases h with ⟨call, hwaits⟩ | hgaveUp
  · exact Or.inl ⟨call, { hwaits with }⟩
  · exact Or.inr { hgaveUp with failures := hgaveUp.failures.imp_right fun hnone => ⟨hnone.1, rfl⟩ }

theorem Reads.closes (h : s.Reads f) : (s.step .closes).Reads f := { h with }

theorem step_kept (event : SequenceEvent) (h : s.Kept f) : (s.step event).Kept f := by
  cases event with
  | closes => exact h.imp Goes.closes Reads.closes
  | fires i result fingerprint closes =>
    rcases h with (⟨call, hwaits⟩ | hgaveUp) | hreads
    · rcases hwaits.step_fires i result fingerprint closes with ⟨-, -, hstep⟩ | ⟨-, hstep⟩
      · have hanswered := hwaits.answered result closes
        rw [hstep]
        by_cases hmore : call = .getshell → result = 0
        · exact Or.inl (afterCall_goes hanswered hwaits.polled hmore fingerprint)
        · obtain ⟨rfl, hok⟩ := Classical.not_imp.mp hmore
          exact Or.inr (afterCall_reads hanswered hok fingerprint)
      · rw [hstep]
        exact Or.inl (Or.inl ⟨call, hwaits⟩)
    · rw [step_fires_idle hgaveUp.timers]
      exact Or.inl (Or.inr hgaveUp)
    · rw [step_fires_idle hreads.timers]
      exact Or.inr hreads

theorem start_waits (f : F) : (start f).Waits f .connect where
  timer := ⟨25, rfl⟩
  polled := by decide
  counter := Nat.zero_le _
  count := Nat.le_refl _
  inOrder := .nil
  due := rfl
  empty := rfl
  failures := rfl
  asked := Or.inl ⟨fun _ hmem => absurd hmem List.not_mem_nil, rfl⟩

theorem not_readerInstalled (hempty : s.recvCallback = .empty) : ¬ s.ReaderInstalled := by
  rintro ⟨callback, hinstalled⟩
  rw [hempty] at hinstalled
  cases hinstalled

theorem Waits.orderly (h : s.Waits f call) : s.Orderly f := by
  obtain ⟨delay, htimer⟩ := h.timer
  have hreader := not_readerInstalled h.empty
  have hcount := h.count
  have hcounter := h.counter
  have hbound := call.before_add_limit
  constructor
  · exact Nat.le_of_eq (congrArg List.length htimer)
  · exact h.inOrder
  · intro timer hmem
    rw [htimer] at hmem
    rw [List.mem_singleton.mp hmem]
    exact h.due
  · exact fun hinstalled => absurd hinstalled hreader
  · rw [htimer, List.length_singleton]
    omega
  · exact fun _ => ⟨hreader, h.failures⟩
  · intro hnone
    rw [htimer] at hnone
    cases hnone
  · exact fun callback hinstalled => absurd ⟨callback, hinstalled⟩ hreader

theorem GaveUp.orderly (h : s.GaveUp) : s.Orderly f := by
  have hreader := not_readerInstalled h.empty
  constructor
  · rw [h.timers]
    exact Nat.zero_le _
  · exact h.inOrder
  · intro timer hmem
    rw [h.timers] at hmem
    cases hmem
  · exact fun hinstalled => absurd hinstalled hreader
  · rw [h.timers]
    exact h.count
  · exact fun hsome => absurd h.timers hsome
  · exact fun _ => Or.inr (h.failures.imp (⟨hreader, ·⟩) (⟨hreader, ·⟩))
  · exact fun callback hinstalled => absurd ⟨callback, hinstalled⟩ hreader

/-- With the reader in place everything but its callback is in order. -/
theorem Reads.orderly_iff (h : s.Reads f) :
    s.Orderly f ↔ ∀ call ∈ s.calls, call.1 = .connect → call.2 = 0 := by
  constructor
  · intro horderly
    rcases h.asked with ⟨hall, -⟩ | ⟨-, hdropped⟩
    · exact hall
    · have hcallback := horderly.callback s.mOnRecv h.installed
      rw [hdropped] at hcallback
      cases hcallback
  · intro hall
    have hasked : s.mOnRecv = some f := by
      rcases h.asked with ⟨-, hasked⟩ | ⟨⟨call, hmem, hconnect, hfailed⟩, -⟩
      · exact hasked
      · exact absurd (hall call hmem hconnect) hfailed
    constructor
    · rw [h.timers]
      exact Nat.zero_le _
    · exact h.inOrder
    · intro timer hmem
      rw [h.timers] at hmem
      cases hmem
    · exact fun _ => h.granted
    · rw [h.timers]
      exact h.count
    · exact fun hsome => absurd h.timers hsome
    · exact fun _ => Or.inl ⟨⟨_, h.installed⟩, h.failures⟩
    · intro callback hinstalled
      rw [h.installed, hasked] at hinstalled
      cases hinstalled
      rfl

theorem Goes.orderly (h : s.Goes f) : s.Orderly f := by
  rcases h with ⟨call, hwaits⟩ | hgaveUp
  · exact hwaits.orderly
  · exact hgaveUp.orderly

theorem firstConnectWorks_of_none {i : ℕ} (fingerprint : ℤ) (closes : Bool)
    (hnone : s.timers[i]? = none) : FirstConnectWorks s (.fires i result fingerprint closes) := by
  rintro ⟨delay, hsome⟩
  rw [hnone] at hsome
  cases hsome

/-- One turn stays orderly exactly when it does not install what a retried connect left. -/
theorem orderly_step_iff (event : SequenceEvent) (h : s.Kept f) (horderly : s.Orderly f) :
    (s.step event).Orderly f ↔ FirstConnectWorks s event := by
  cases event with
  | closes =>
    refine iff_of_true ?_ trivial
    rcases h with hgoes | hreads
    · exact hgoes.closes.orderly
    · exact hreads.closes.orderly_iff.mpr (hreads.orderly_iff.mp horderly)
  | fires i result fingerprint closes =>
    have hidle : s.timers = [] → ((s.step (.fires i result fingerprint closes)).Orderly f ↔
        FirstConnectWorks s (.fires i result fingerprint closes)) := by
      intro htimers
      rw [step_fires_idle htimers]
      exact iff_of_true horderly (firstConnectWorks_of_none _ _ (by rw [htimers]; rfl))
    rcases h with (⟨call, hwaits⟩ | hgaveUp) | hreads
    · rcases hwaits.step_fires i result fingerprint closes with
        ⟨delay, htimer, hstep⟩ | ⟨hnone, hstep⟩
      · have hanswered := hwaits.answered result closes
        rw [hstep]
        by_cases hmore : call = .getshell → result = 0
        · refine iff_of_true (afterCall_goes hanswered hwaits.polled hmore fingerprint).orderly ?_
          rintro ⟨delay', htimer'⟩ hok
          rw [htimer] at htimer'
          cases htimer'
          exact absurd (hmore rfl) hok
        · obtain ⟨rfl, hok⟩ := Classical.not_imp.mp hmore
          have hcalls : ((s.answered .getshell result closes).afterCall result fingerprint
              .getshell).calls = s.calls ++ [(.getshell, result)] :=
            congrArg Sequence.calls (if_neg hok)
          rw [(afterCall_reads hanswered hok fingerprint).orderly_iff, hcalls]
          constructor
          · exact fun hall _ _ call' hmem => hall call' (List.mem_append_left _ hmem)
          · intro hfirst call' hmem hconnect
            rcases List.mem_append.mp hmem with hold | hnew
            · exact hfirst ⟨delay, htimer⟩ hok call' hold hconnect
            · rw [List.mem_singleton.mp hnew] at hconnect
              cases hconnect
      · rw [hstep]
        exact iff_of_true horderly (firstConnectWorks_of_none _ _ hnone)
    · exact hidle hgaveUp.timers
    · exact hidle hreads.timers

end Sequence

/-- A run is orderly at every moment exactly when no shell is granted in it after a connect
that reported a failure. -/
theorem orderly_run_iff {F : Type*} (f : F) (events : List SequenceEvent) :
    (∀ pre, pre <+: events → (run Sequence.step (.start f) pre).Orderly f) ↔
      AllSteps Sequence.step FirstConnectWorks (.start f) events :=
  forall_prefix_iff Sequence.step (fun _ event => Sequence.step_kept event)
    (fun _ event => Sequence.orderly_step_iff event) (Or.inl (Or.inl ⟨_, Sequence.start_waits f⟩))
    (Sequence.start_waits f).orderly

/-- The first connect fails, every later call works: `queue_read` installs `undefined`. -/
theorem not_orderly_retriedConnect :
    ¬ ∀ (f : Unit) (events : List SequenceEvent),
      (run Sequence.step (.start f) events).Orderly f := by
  intro h
  have hcallback := (h () [.fires 0 1 0 false, .fires 0 0 0 false, .fires 0 0 0 false,
    .fires 0 1 0 false, .fires 0 1 0 false, .fires 0 1 0 false, .fires 0 1 0 false,
    .fires 0 1 0 false, .fires 0 1 0 false]).callback none rfl
  cases hcallback

end Jterm.Page
