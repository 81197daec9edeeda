import Jterm.Vterm.Cursor

/-!
Runs of the terminal in which the cursor, the margins and every scroll stay on the screen.
-/
namespace Jterm.Vterm

open Runs VTermState

/-- What moverect_internal asks for is on the screen, and no row is skipped as negative. -/
def VTermScreen.MoveFits (s : VTermScreen) (dest src : VTermRect) : Prop :=
  src.startCol < src.endCol ∧
    ∀ row ∈ VTermScreen.moveRows dest src, 0 ≤ row ∧
      ∀ k, 0 ≤ k → k < src.endCol - src.startCol →
        s.Inside row (dest.startCol + k) ∧
          s.Inside (row + (src.startRow - dest.startRow)) (src.startCol + k)

/-- A scroll has its rectangle and the cells it moves on the screen. -/
def ScreenCall.Safe (s : VTermScreen) : ScreenCall → Prop
  | .scrollrect rect downward rightward =>
    rect.InsideOf s.rows s.cols ∧
      (¬ rect.ScrollsAway downward rightward →
        s.MoveFits (rect.scrollDest downward rightward) (rect.scrollSrc downward rightward))
  | _ => True

theorem VTermRect.InsideOf.moveFits {s : VTermScreen} {rect : VTermRect} {downward rightward : ℤ}
    (h : rect.InsideOf s.rows s.cols) (haway : ¬ rect.ScrollsAway downward rightward) :
    s.MoveFits (rect.scrollDest downward rightward) (rect.scrollSrc downward rightward) := by
  unfold VTermRect.InsideOf at h
  unfold VTermRect.ScrollsAway at haway
  constructor
  · simp only [VTermRect.scrollSrc]
    split_ifs <;> omega
  · intro row hrow
    have hdest := VTermScreen.mem_moveRows hrow
    simp only [VTermRect.HasRow, VTermRect.scrollDest] at hdest
    have hbounds : rect.startRow ≤ row ∧ row < rect.endRow ∧
        rect.startRow ≤ row + downward ∧ row + downward < rect.endRow := by
      split_ifs at hdest
      · omega
      · omega
    refine ⟨by omega, ?_⟩
    intro k hk hwidth
    simp only [VTermRect.scrollSrc, VTermRect.scrollDest, VTermScreen.Inside] at hwidth ⊢
    split_ifs at hwidth ⊢ <;> omega

/-- Calls that scroll inside the screen are safe one after the other. -/
theorem allSteps_safe {s : VTermScreen} {calls : List ScreenCall}
    (hinside : ∀ c ∈ calls, c.Inside s.rows s.cols) :
    AllSteps VTermScreen.exec (fun s c => c.Safe s) s calls ∧
      (run VTermScreen.exec s calls).size = s.size := by
  induction calls generalizing s with
  | nil => exact ⟨trivial, rfl⟩
  | cons c calls ih =>
    have hc := hinside c List.mem_cons_self
    have hsafe : c.Safe s := by
      cases c with
      | scrollrect rect downward rightward => exact ⟨hc, fun haway => hc.moveFits haway⟩
      | _ => trivial
    have hsize : (s.exec c).size = s.size := by
      apply VTermScreen.size_exec
      rintro rows cols rfl
      exact hc
    obtain ⟨hrows, hcols⟩ := Prod.mk.inj hsize
    have hrest : ∀ d ∈ calls, d.Inside (s.exec c).rows (s.exec c).cols := by
      intro d hd
      rw [hrows, hcols]
      exact hinside d (List.mem_cons_of_mem c hd)
    obtain ⟨hsteps, hfinal⟩ := ih hrest
    exact ⟨⟨hsafe, hsteps⟩, hfinal.trans hsize⟩

/-- The state keeps to the size of the screen, which has done all that it asked for. -/
structure DisplayInv (d : Display) (n : ℤ × ℤ) : Prop where
  cursor : d.state.CursorInv n
  size : d.screen.size = n
  calls : d.state.calls = []

theorem DisplayInv.drained {d : Display} {n : ℤ × ℤ} (h : DisplayInv d n) :
    { d.state with calls := [] } = d.state := by
  rw [← h.calls]

/-- A function of the state that leaves the cursor on the screen, run with the screen behind it. -/
theorem displayInv_apply {d : Display} {n : ℤ × ℤ} {f : VTermState → VTermState}
    (hf : (f { d.state with calls := [] }).CursorInv n) (hsize : d.screen.size = n) :
    DisplayInv (d.apply f) n ∧ AllSteps VTermScreen.exec (fun s c => c.Safe s) d.screen
      (f { d.state with calls := [] }).calls := by
  unfold Display.apply
  dsimp only
  generalize f { d.state with calls := [] } = s at hf ⊢
  obtain ⟨hsrows, hscols⟩ := Prod.mk.inj (hsize.trans hf.1.size.symm)
  have hinside : ∀ c ∈ s.calls, c.Inside d.screen.rows d.screen.cols := by
    rw [hsrows, hscols]
    exact hf.1.inside
  obtain ⟨hsteps, hrun⟩ := allSteps_safe hinside
  have hdrained : CursorInv { s with calls := [] } n :=
    ⟨⟨hf.1.size, hf.1.rows_pos, hf.1.cols_pos, hf.1.margins, hf.1.bounded, by simp⟩, hf.2⟩
  exact ⟨⟨hdrained, hrun.trans hsize, rfl⟩, hsteps⟩

theorem DisplayInv.apply {d : Display} {n : ℤ × ℤ} {f : VTermState → VTermState}
    (h : DisplayInv d n) (hf : (f d.state).CursorInv n) :
    DisplayInv (d.apply f) n ∧
      AllSteps VTermScreen.exec (fun s c => c.Safe s) d.screen (f d.state).calls := by
  rw [← h.drained] at hf
  have hnext := displayInv_apply hf h.size
  rw [h.drained] at hnext
  exact hnext

theorem DisplayInv.call {d : Display} {n : ℤ × ℤ} {c : ParserCall} (h : DisplayInv d n)
    (hfits : d.state.CallFits c) : DisplayInv (d.call c) n :=
  (h.apply (f := fun s => s.stateCall c) (h.cursor.stateCall hfits)).1

/-- Callbacks of the parser that keep the cursor ask for safe scrolls only. -/
theorem DisplayInv.displayCalls_safe {d : Display} {n : ℤ × ℤ} {cs : List ParserCall}
    (h : DisplayInv d n)
    (hfits : AllSteps Display.call (fun d c => d.state.CallFits c) d cs) :
    AllSteps VTermScreen.exec (fun s c => c.Safe s) d.screen (displayCalls d cs) := by
  induction cs generalizing d with
  | nil => trivial
  | cons c cs ih =>
    obtain ⟨hnext, hsteps⟩ :=
      h.apply (f := fun s => s.stateCall c) (h.cursor.stateCall hfits.1)
    refine (allSteps_append _ _ _ _ _).mpr ⟨?_, ?_⟩
    · rw [h.drained]
      exact hsteps
    · exact ih hnext hfits.2

theorem onResize_calls {s : VTermState} (hs : s.calls = []) (rows cols : ℤ) :
    (s.onResize rows cols).calls = [.resize rows cols] ∨
      ∃ pos oldpos visible, (s.onResize rows cols).calls =
        [.resize rows cols, .movecursor pos oldpos visible] := by
  have hfit : (s.fitSize rows cols).calls = [] := by
    unfold fitSize
    dsimp only
    split_ifs
    all_goals exact hs
  unfold VTermState.onResize VTermState.updatecursor VTermState.call
  rw [hfit]
  split
  · exact .inl rfl
  · exact .inr ⟨_, _, _, rfl⟩

theorem DisplayInv.onResize {d : Display} {n : ℤ × ℤ} {c r : ℤ} (h : DisplayInv d n)
    (hfits : d.state.ResizeFits c r) :
    DisplayInv (d.apply fun s => s.onResize r c) (r, c) ∧
      AllSteps VTermScreen.exec (fun s c => c.Safe s) d.screen (d.state.onResize r c).calls := by
  have hsize : (run VTermScreen.exec d.screen (d.state.onResize r c).calls).size = (r, c) := by
    rcases onResize_calls h.calls r c with hcalls | ⟨pos, oldpos, visible, hcalls⟩
    · rw [hcalls]
      exact VTermScreen.size_resize d.screen r c
    · rw [hcalls]
      exact VTermScreen.size_resize d.screen r c
  constructor
  · unfold Display.apply
    rw [h.drained]
    exact ⟨h.cursor.onResize hfits, hsize, rfl⟩
  · rcases onResize_calls h.calls r c with hcalls | ⟨pos, oldpos, visible, hcalls⟩
    · rw [hcalls]
      exact ⟨trivial, trivial⟩
    · rw [hcalls]
      exact ⟨trivial, trivial, trivial⟩

/-- What keeps the cursor and the margins on the screen. -/
def StaysOnScreen (t : VTerm) : VTermEvent → Prop
  | .recv bytes =>
    AllSteps Display.call (fun d c => d.state.CallFits c) t.display (recvCalls t bytes)
  | .flush => True
  | .resize c r => t.display.state.ResizeFits c r

instance (t : VTerm) : ∀ e, Decidable (StaysOnScreen t e)
  | .recv bytes =>
    inferInstanceAs (Decidable (AllSteps Display.call _ t.display (recvCalls t bytes)))
  | .flush => .isTrue trivial
  | .resize c r => inferInstanceAs (Decidable (t.display.state.ResizeFits c r))

theorem DisplayInv.vtermStep {t : VTerm} {n : ℤ × ℤ} {e : VTermEvent} (h : DisplayInv t.display n)
    (hfits : StaysOnScreen t e) :
    (∃ m, DisplayInv (vtermStep t e).display m) ∧
      AllSteps VTermScreen.exec (fun s c => c.Safe s) t.display.screen (screenCalls t e) := by
  cases e with
  | recv bytes =>
    refine ⟨⟨n, ?_⟩, h.displayCalls_safe hfits⟩
    change DisplayInv (webvtermRecv t bytes).display n
    rw [webvtermRecv_display]
    exact invariant_run Display.call (fun d c (hd : DisplayInv d n) hc => hd.call hc) h hfits
  | flush =>
    exact ⟨⟨n, h.cursor, (VTermScreen.size_flushDamage _).trans h.size, h.calls⟩, trivial, trivial⟩
  | resize c r =>
    obtain ⟨hnext, hsteps⟩ := h.onResize hfits
    refine ⟨⟨(r, c), hnext⟩, ?_⟩
    unfold screenCalls
    rw [h.drained]
    exact hsteps

theorem cursorInv_reset_new {cols rows : ℤ} (hcols : 1 ≤ cols) (hrows : 1 ≤ rows)
    (stack : List ℕ) :
    (VTermState.reset { VTermState.new rows cols stack with calls := [] } true).CursorInv
      (rows, cols) := by
  have hframe : ((VTermState.new rows cols stack).reset true).FrameInv (rows, cols) := by
    apply frameInv_reset
    · rfl
    · exact hrows
    · exact hcols
    · intro c hc
      exact absurd hc List.not_mem_nil
  exact ⟨hframe, Int.le_refl 0, hrows, Int.le_refl 0, hcols⟩

theorem displayInv_webvtermInit {cols rows : ℤ} (hcols : 1 ≤ cols) (hrows : 1 ≤ rows)
    (lowMemory : ℤ → ScreenCell) (stack : List ℕ) :
    DisplayInv (webvtermInit cols rows lowMemory stack).display (rows, cols) := by
  have happly := (displayInv_apply (d := ⟨.new rows cols stack, .new rows cols lowMemory⟩)
    (f := fun s => s.reset true) (cursorInv_reset_new hcols hrows stack) rfl).1
  unfold webvtermInit
  dsimp only
  generalize Display.apply _ _ = d at happly ⊢
  exact ⟨happly.cursor, (VTermScreen.size_flushDamage _).trans happly.size, happly.calls⟩

/-- The cursor and the margins are on the screen. -/
def VTermState.OnScreen (s : VTermState) : Prop :=
  s.PosInside ∧ 0 ≤ s.scrollregionStart ∧ s.scrollregionStart < s.scrollregionBottom ∧
    s.scrollregionBottom ≤ s.rows

theorem DisplayInv.onScreen {d : Display} {n : ℤ × ℤ} (h : DisplayInv d n) : d.state.OnScreen :=
  ⟨h.cursor.2, h.cursor.1.bottom⟩

/-- A run that meets the condition keeps the cursor and the margins on the screen, between the
callbacks of the parser too, and all that it scrolls. -/
theorem stays_on_screen {cols rows : ℤ} (hcols : 1 ≤ cols) (hrows : 1 ≤ rows)
    (lowMemory : ℤ → ScreenCell) (stack : List ℕ) {es pre : List VTermEvent}
    (hall : AllSteps vtermStep StaysOnScreen (webvtermInit cols rows lowMemory stack) es)
    (hpre : pre <+: es) :
    let t := run vtermStep (webvtermInit cols rows lowMemory stack) pre
    t.display.state.OnScreen ∧
      (∀ bytes cs, pre ++ [.recv bytes] <+: es → cs <+: recvCalls t bytes →
        (run Display.call t.display cs).state.OnScreen) ∧
      ∀ e, pre ++ [e] <+: es →
        AllSteps VTermScreen.exec (fun s c => c.Safe s) t.display.screen (screenCalls t e) := by
  intro t
  have hinit : ∃ n, DisplayInv (webvtermInit cols rows lowMemory stack).display n :=
    ⟨_, displayInv_webvtermInit hcols hrows lowMemory stack⟩
  have hstep : ∀ t e, (∃ n, DisplayInv t.display n) → StaysOnScreen t e →
      ∃ n, DisplayInv (vtermStep t e).display n := fun t e ⟨n, hn⟩ he => (hn.vtermStep he).1
  obtain ⟨n, ht⟩ := invariant_along vtermStep hstep hinit hall hpre
  have hnext : ∀ e, pre ++ [e] <+: es → StaysOnScreen t e := by
    rintro e ⟨rest, rfl⟩
    rw [List.append_assoc] at hall
    exact ((allSteps_append vtermStep _ _ pre _).mp hall).2.1
  refine ⟨ht.onScreen, ?_, ?_⟩
  · intro bytes cs he hcs
    exact (invariant_along Display.call (fun d c (hd : DisplayInv d n) hc => hd.call hc) ht
      (hnext _ he) hcs).onScreen
  · intro e he
    exact (ht.vtermStep (hnext e he)).2

/-- Text, margins of two rows, origin mode inside them, then a screen of these two rows. -/
theorem stays_on_screen_resized :
    (run vtermStep (webvtermInit 5 3 (fun _ => .blank .zero) [])
      [.recv [0x61, 0x0a, 0x1b, 0x5b, 0x31, 0x3b, 0x32, 0x72, 0x1b, 0x5b, 0x3f, 0x36, 0x68],
        .resize 4 2]).display.state.OnScreen := by
  have hall : AllSteps vtermStep StaysOnScreen (webvtermInit 5 3 (fun _ => .blank .zero) [])
      [.recv [0x61, 0x0a, 0x1b, 0x5b, 0x31, 0x3b, 0x32, 0x72, 0x1b, 0x5b, 0x3f, 0x36, 0x68],
        .resize 4 2] := by decide
  exact (stays_on_screen (by decide) (by decide) _ _ hall List.prefix_rfl).1

/-- Origin mode with no margins set clamps the row to -2. -/
theorem origin_mode_leaves_screen :
    ¬ (run vtermStep (webvtermInit 5 2 (fun _ => .blank .zero) [])
      [.recv [0x1b, 0x5b, 0x3f, 0x36, 0x68]]).display.state.OnScreen := by
  intro h
  have hrow : (run vtermStep (webvtermInit 5 2 (fun _ => .blank .zero) [])
      [.recv [0x1b, 0x5b, 0x3f, 0x36, 0x68]]).display.state.pos.row = -2 := by decide
  have hinside := h.1.1
  rw [hrow] at hinside
  omega

end Jterm.Vterm
