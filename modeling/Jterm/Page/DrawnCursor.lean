import Jterm.Page.Resizing
import Jterm.Vterm.Recorded

/-!
The page and its terminal between two calls of on_recv. The drawn cursor is copied from the state
when damage is reported and at no other time, so a call of on_recv has to report something behind
the last motion, or leave the cursor where it was.
-/
namespace Jterm.Page

open Runs Vterm

/-- The terminal, and where textmatrix_draw_cursor has last put the cursor. -/
structure TermPage where
  term : VTerm
  cursor : VTermPos
  cols : ℤ
  rows : ℤ
  firstrecv : Bool

/-- What one webssh2_read returns, and where the state's cursor stands when screen_damage is
called for the last time while webvterm_recv works on it. -/
structure Chunk where
  bytes : List UInt8
  seen : VTermPos
  deriving DecidableEq, Repr

namespace TermPage

/-- webvterm_damage_cb, as far as the cursor goes. -/
def damageCb (s : TermPage) : TermPage := { s with cursor := s.term.display.state.pos }

/-- webvterm_recv; screen_damage may be called before the last motion. -/
def recv (s : TermPage) (c : Chunk) : TermPage :=
  let term := webvtermRecv s.term c.bytes
  let reports := term.display.screen.damageLog ≠ s.term.display.screen.damageLog
  { s with term := term, cursor := if reports then c.seen else s.cursor }

def flushDamage (s : TermPage) : TermPage :=
  let term := webvtermFlushDamage s.term
  let reports := term.display.screen.damageLog ≠ s.term.display.screen.damageLog
  if reports then { s with term := term }.damageCb else { s with term := term }

def doresize (s : TermPage) : TermPage :=
  { s with term := webvtermResize s.term s.cols s.rows }.damageCb

/-- on_recv; `chunks` are what its loop reads until webssh2_read has nothing more. -/
def onRecv (s : TermPage) (chunks : List Chunk) : TermPage :=
  let s := run recv s chunks
  let s := if s.firstrecv then { s.doresize with firstrecv := false } else s
  s.flushDamage

end TermPage

/-- A doresize of its own is the one the first on_recv puts off by half a second. -/
inductive TermPageEvent
  | onRecv (chunks : List Chunk)
  | doresize
  deriving DecidableEq, Repr

def termPageStep (s : TermPage) : TermPageEvent → TermPage
  | .onRecv chunks => s.onRecv chunks
  | .doresize => s.doresize

/-- do_connect has set both up for one size. -/
def connected (cols rows : ℤ) (lowMemory : ℤ → ScreenCell) (stack : List ℕ) : TermPage :=
  { term := webvtermInit cols rows lowMemory stack
    cursor := ⟨0, 0⟩
    cols := cols
    rows := rows
    firstrecv := true }

/-- The drawn cursor is the terminal's. -/
def TermPage.Follows (s : TermPage) : Prop := s.cursor = s.term.display.state.pos

instance (s : TermPage) : Decidable s.Follows := inferInstanceAs (Decidable (_ = _))

/-- The events of the terminal that the loop of on_recv causes. -/
def recvEvents (chunks : List Chunk) : List VTermEvent := chunks.map fun c => .recv c.bytes

/-- Nothing scrolls and the cursor comes back to where it was. -/
def TermPage.Stays (s : TermPage) (chunks : List Chunk) : Prop :=
  (∀ c ∈ eventCalls s.term (recvEvents chunks), ¬ c.Scrolls) ∧
  (run vtermStep s.term (recvEvents chunks)).display.state.pos = s.term.display.state.pos

/-- A cell is written, erased or scrolled, and no rectangle is lost. -/
def TermPage.Touches (s : TermPage) (chunks : List Chunk) : Prop :=
  let calls := eventCalls s.term (recvEvents chunks)
  SomeStep VTermScreen.exec VTermScreen.Damages s.term.display.screen calls ∧
    AllSteps VTermScreen.exec VTermScreen.Reports s.term.display.screen (calls ++ [.flushDamage])

instance (s : TermPage) (chunks : List Chunk) : Decidable (s.Stays chunks) :=
  inferInstanceAs (Decidable (_ ∧ _))

instance (s : TermPage) (chunks : List Chunk) : Decidable (s.Touches chunks) :=
  inferInstanceAs (Decidable (_ ∧ _))

/-- The condition on one event. -/
def KeepsCursor (s : TermPage) : TermPageEvent → Prop
  | .onRecv chunks => s.firstrecv = true ∨ s.Stays chunks ∨ s.Touches chunks
  | .doresize => True

instance (s : TermPage) : ∀ e, Decidable (KeepsCursor s e)
  | .onRecv _ => inferInstanceAs (Decidable (_ ∨ _ ∨ _))
  | .doresize => .isTrue trivial

/-- The matrix's cursor. -/
def Textmatrix.CursorAt (m : Textmatrix) (x y : ℤ) : Prop := m.cursorX = x ∧ m.cursorY = y

theorem redrawLine_cursor {m m' : Textmatrix} {x y z : ℤ} (hcursor : m.CursorAt x y)
    (h : textmatrixRedrawLine m z = some m') : m'.CursorAt x y := by
  obtain ⟨newline, -, hset⟩ := Option.bind_eq_some_iff.mp h
  split at hset
  · cases hset
    exact hcursor
  · simp at hset

theorem copyRow_cursor {buffers : RowBuffers} {cy cx : ℕ} {m m' : Textmatrix} {x y : ℤ}
    (hcursor : m.CursorAt x y) (h : copyRow buffers cy m cx = some m') : m'.CursorAt x y := by
  obtain ⟨row, -, hset⟩ := Option.bind_eq_some_iff.mp h
  split at hset
  · cases hset
    exact hcursor
  · simp at hset

theorem repaintRow_cursor {t : Terminal} {cy : ℕ} {m m' : Textmatrix} {x y : ℤ}
    (hcursor : m.CursorAt x y) (h : repaintRow t m cy = some m') : m'.CursorAt x y := by
  obtain ⟨line, -, hrow⟩ := Option.bind_eq_some_iff.mp h
  split at hrow
  · obtain ⟨copied, hcopied, hdrawn⟩ := Option.bind_eq_some_iff.mp hrow
    have hrow : copied.CursorAt x y := foldlM_keeps (I := fun n => n.CursorAt x y)
      (fun _ _ _ _ hn hstep => copyRow_cursor hn hstep) hcursor hcopied
    exact redrawLine_cursor hrow hdrawn
  · cases hrow
    exact hcursor

theorem drawCursor_cursor {m m' : Textmatrix} {x y : ℤ}
    (h : textmatrixDrawCursor m x y = some m') : m'.CursorAt x y := by
  have hmoved : Textmatrix.CursorAt { m with cursorX := x, cursorY := y } x y := ⟨rfl, rfl⟩
  obtain ⟨next, hfirst, hsecond⟩ := Option.bind_eq_some_iff.mp h
  refine redrawLine_cursor ?_ hsecond
  generalize (if x ≠ m.cursorX ∨ y ≠ m.cursorY then m.cursorY else -1) = redrawY at hfirst
  by_cases hold : redrawY ≠ -1
  · rw [if_pos hold] at hfirst
    exact redrawLine_cursor hmoved hfirst
  · rw [if_neg hold] at hfirst
    cases hfirst
    exact hmoved

/-- Whatever else webvterm_damage_cb draws, it leaves the cursor where the terminal says. -/
theorem webvtermDamageCb_cursor {t : Terminal} {m m' : Textmatrix} {startRow endRow : ℕ}
    (h : webvtermDamageCb t m startRow endRow = some m') : m'.CursorAt t.cursorX t.cursorY := by
  obtain ⟨moved, hmoved, hrepaint⟩ := Option.bind_eq_some_iff.mp h
  have hfirst : moved.CursorAt t.cursorX t.cursorY := drawCursor_cursor hmoved
  exact foldlM_keeps (I := fun n => n.CursorAt t.cursorX t.cursorY)
    (fun _ _ _ _ hn hstep => repaintRow_cursor hn hstep) hfirst hrepaint

namespace TermPage

variable {s : TermPage} {chunks : List Chunk}

theorem follows_damageCb (s : TermPage) : s.damageCb.Follows := rfl

theorem run_recv_term (s : TermPage) (chunks : List Chunk) :
    (run recv s chunks).term = run vtermStep s.term (recvEvents chunks) := by
  induction chunks generalizing s with
  | nil => rfl
  | cons c chunks ih => exact ih (s.recv c)

theorem run_recv_firstrecv (s : TermPage) (chunks : List Chunk) :
    (run recv s chunks).firstrecv = s.firstrecv :=
  invariant_of_step recv (fun t => t.firstrecv = s.firstrecv) (fun _ _ h => h) chunks rfl

/-- The drawn cursor stays as long as webvterm_recv reports nothing. -/
theorem run_recv_cursor
    (hscroll : ∀ c ∈ eventCalls s.term (recvEvents chunks), ¬ c.Scrolls) :
    (run recv s chunks).cursor = s.cursor := by
  induction chunks generalizing s with
  | nil => rfl
  | cons c chunks ih =>
    have hcalls : eventCalls s.term (recvEvents (c :: chunks)) =
        screenCalls s.term (.recv c.bytes) ++ eventCalls (s.recv c).term (recvEvents chunks) := rfl
    rw [hcalls] at hscroll
    have hstate := (asks_displayCalls (P := OfStateCalls) s.term.display
      (recvCalls s.term c.bytes)).1
    have hlog : (s.recv c).term.display.screen.damageLog = s.term.display.screen.damageLog := by
      have hscreen := vtermStep_screen s.term (.recv c.bytes)
      have hsame := VTermScreen.run_log (s := s.term.display.screen) hstate
        fun d hd => hscroll d (List.mem_append_left _ hd)
      exact (congrArg VTermScreen.damageLog hscreen).trans hsame
    have hfirst : (s.recv c).cursor = s.cursor := if_neg (not_not.mpr hlog)
    have hrest := ih (s := s.recv c) fun d hd => hscroll d (List.mem_append_right _ hd)
    exact hrest.trans hfirst

theorem flushDamage_firstrecv (s : TermPage) : s.flushDamage.firstrecv = s.firstrecv := by
  unfold flushDamage
  dsimp only
  split
  · rfl
  · rfl

/-- A flush that reports moves the drawn cursor to the state's. -/
theorem follows_flushDamage (h : s.Follows ∨
      s.term.display.screen.flushDamage.damageLog ≠ s.term.display.screen.damageLog) :
    s.flushDamage.Follows := by
  unfold flushDamage
  dsimp only
  split
  · exact follows_damageCb _
  · rename_i hsame
    exact h.resolve_right hsame

/-- Something is touched and not lost, so that the flush reports. -/
theorem Touches.reports (h : s.Touches chunks) :
    (run recv s chunks).term.display.screen.flushDamage.damageLog ≠
      (run recv s chunks).term.display.screen.damageLog := by
  obtain ⟨hdamages, hall⟩ := h
  obtain ⟨hreports, hfits, -⟩ := (allSteps_append _ _ _ _ _).mp hall
  have hstate : ∀ c ∈ eventCalls s.term (recvEvents chunks), c.OfState := by
    clear hdamages hall hreports hfits
    induction chunks generalizing s with
    | nil => simp [recvEvents, eventCalls]
    | cons c chunks ih =>
      intro d hd
      rcases List.mem_append.mp hd with hfirst | hrest
      · exact (asks_displayCalls (P := OfStateCalls) s.term.display (recvCalls s.term c.bytes)).1 d
          hfirst
      · exact ih (s := s.recv c) d hrest
  rw [run_recv_term, run_vtermStep_screen]
  exact VTermScreen.flushDamage_reports hfits
    (VTermScreen.run_recorded hstate hreports (.inr hdamages))

theorem follows_onRecv (h : s.firstrecv = true ∨ s.Follows)
    (hkeeps : KeepsCursor s (.onRecv chunks)) :
    (s.onRecv chunks).Follows ∧ (s.onRecv chunks).firstrecv = false := by
  have hfirstrecv := run_recv_firstrecv s chunks
  unfold onRecv
  dsimp only
  by_cases hfirst : s.firstrecv = true
  · rw [if_pos (hfirstrecv.trans hfirst)]
    refine ⟨follows_flushDamage (.inl ?_), flushDamage_firstrecv _⟩
    rfl
  · have hoff : s.firstrecv = false := Bool.eq_false_iff.mpr hfirst
    rw [if_neg (by rw [hfirstrecv]; exact hfirst)]
    refine ⟨follows_flushDamage ?_, (flushDamage_firstrecv _).trans (hfirstrecv.trans hoff)⟩
    rcases hkeeps.resolve_left hfirst with hstays | htouches
    · left
      obtain ⟨hscroll, hpos⟩ := hstays
      unfold Follows
      rw [run_recv_cursor hscroll, run_recv_term, hpos]
      exact h.resolve_left hfirst
    · exact .inr htouches.reports

/-- Before the first on_recv nothing is promised. -/
theorem follows_termPageStep {e : TermPageEvent} (h : s.firstrecv = true ∨ s.Follows)
    (hkeeps : KeepsCursor s e) :
    (termPageStep s e).firstrecv = true ∨ (termPageStep s e).Follows := by
  cases e with
  | onRecv chunks => exact .inr (follows_onRecv h hkeeps).1
  | doresize => exact .inr (follows_damageCb _)

end TermPage

/-- In a run whose calls of on_recv each touch a cell, or leave the cursor where it was, the drawn
cursor is the terminal's whenever on_recv has returned. -/
theorem cursor_drawn (cols rows : ℤ) (lowMemory : ℤ → ScreenCell) (stack : List ℕ)
    {es pre : List TermPageEvent} {chunks : List Chunk}
    (hall : AllSteps termPageStep KeepsCursor (connected cols rows lowMemory stack) es)
    (hpre : pre ++ [.onRecv chunks] <+: es) :
    (run termPageStep (connected cols rows lowMemory stack) (pre ++ [.onRecv chunks])).Follows := by
  obtain ⟨rest, rfl⟩ := hpre
  obtain ⟨hcalls, -⟩ := (allSteps_append termPageStep _ _ _ _).mp hall
  obtain ⟨hbefore, hlast, -⟩ := (allSteps_append termPageStep _ _ _ _).mp hcalls
  have hstep : ∀ (s : TermPage) e, s.firstrecv = true ∨ s.Follows → KeepsCursor s e →
      (termPageStep s e).firstrecv = true ∨ (termPageStep s e).Follows :=
    fun s e h hok => TermPage.follows_termPageStep h hok
  have hinv := invariant_run termPageStep hstep
    (s := connected cols rows lowMemory stack) (.inl rfl) hbefore
  rw [run, List.foldl_append]
  exact (TermPage.follows_onRecv hinv hlast).1

/-- A prompt, a bell, and a character that is erased again. -/
theorem cursor_drawn_typed :
    (run termPageStep (connected 5 2 (fun _ => .blank .zero) [])
      [.onRecv [⟨[0x24, 0x20], ⟨0, 0⟩⟩], .doresize, .onRecv [⟨[0x07], ⟨0, 0⟩⟩],
        .onRecv [⟨[0x61], ⟨0, 0⟩⟩, ⟨[0x08, 0x20, 0x08], ⟨0, 0⟩⟩]]).Follows :=
  @cursor_drawn 5 2 (fun _ => .blank .zero) [] _
    [.onRecv [⟨[0x24, 0x20], ⟨0, 0⟩⟩], .doresize, .onRecv [⟨[0x07], ⟨0, 0⟩⟩]] _
    (by decide +kernel) List.prefix_rfl

/-- A motion alone is not drawn. -/
theorem cursor_left_behind :
    ¬ (run termPageStep (connected 5 2 (fun _ => .blank .zero) [])
      [.onRecv [⟨[0x61], ⟨0, 0⟩⟩],
        .onRecv [⟨[0x1b, 0x5b, 0x32, 0x3b, 0x32, 0x48], ⟨0, 0⟩⟩]]).Follows := by
  decide +kernel

end Jterm.Page
