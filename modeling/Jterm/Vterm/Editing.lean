import Jterm.Vterm.TermGrid

/-!
The functions that insert and delete lines and characters (ICH, DCH, IL, DL, SU, SD). Each is one
scroll of a rectangle that the cursor or the margins give; on every screen that is reached without
leaving it, the cells are shifted by the count of the function and nothing else changes.
-/
namespace Jterm.Vterm

open Runs VTermState

/-- A rectangle and the offset from which its cells are taken. -/
structure Shift where
  rect : VTermRect
  downward : ℤ
  rightward : ℤ
  deriving DecidableEq, Repr

/-- What an editing function with the count `n` shifts. -/
def VTermState.shift (s : VTermState) (n : ℤ) : CsiFunction → Option Shift
  | .ich => some ⟨s.lineRight, 0, -n⟩
  | .dch => some ⟨s.lineRight, 0, n⟩
  | .il => some ⟨s.linesBelow, -n, 0⟩
  | .dl => some ⟨s.linesBelow, n, 0⟩
  | .su => some ⟨s.scrollregion, n, 0⟩
  | .sd => some ⟨s.scrollregion, -n, 0⟩
  | _ => none

/-- An erased cell in the colours of the screen's pen. -/
def VTermScreen.blankCell (s : VTermScreen) : VTermScreenCell := s.grid.blankCell

/-- The cells behind a shift. -/
def VTermScreen.shifted (s : VTermScreen) (shift : Shift) (row col : ℤ) : VTermScreenCell :=
  if shift.rect.HasCell row col then
    if shift.rect.HasCell (row + shift.downward) (col + shift.rightward) then
      s.getCell (row + shift.downward) (col + shift.rightward)
    else s.blankCell
  else s.getCell row col

theorem csiArgCount_pos (a : ℕ) : 0 < csiArgCount a := by
  unfold csiArgCount
  split
  · exact Int.one_pos
  · rename_i harg
    rw [not_or] at harg
    omega

/-- The scroll is in one direction, and inside the screen. -/
theorem shift_spec {s : VTermState} {size : ℤ × ℤ} (h : s.CursorInv size) {n : ℤ} (hn : 0 < n)
    {f : CsiFunction} {shift : Shift} (hf : s.shift n f = some shift) :
    shift.rect.InsideOf s.rows s.cols ∧ (shift.downward = 0 ∨ shift.rightward = 0) ∧
      ¬ (shift.downward = 0 ∧ shift.rightward = 0) := by
  cases f
  case ich | dch =>
    cases hf
    exact ⟨lineRight_inside h, .inl rfl, by dsimp only; omega⟩
  case il | dl =>
    cases hf
    exact ⟨linesBelow_inside h, .inr rfl, by dsimp only; omega⟩
  case su | sd =>
    cases hf
    exact ⟨scrollregion_inside h.1, .inr rfl, by dsimp only; omega⟩
  all_goals cases hf

theorem csiCase_shift {s : VTermState} {args : List ℕ} {f : CsiFunction} {shift : Shift}
    (hf : s.shift (csiArgCount (args.getD 0 0)) f = some shift) :
    s.csiCase args f = some (s.scroll shift.rect shift.downward shift.rightward) := by
  cases f
  case ich | dch | il | dl | su | sd =>
    cases hf
    rfl
  all_goals cases hf

/-- Clamping and reporting the cursor asks nothing else of the cells. -/
theorem calls_clamped (s : VTermState) (oldpos : VTermPos) :
    ∃ moved : List ScreenCall, (s.clampCursor.updatecursor oldpos true).calls = s.calls ++ moved ∧
      ∀ g : TermGrid, run TermGrid.exec g moved = g := by
  have hcalls : s.clampCursor.calls = s.calls := rfl
  unfold VTermState.updatecursor
  split
  · exact ⟨[], by rw [hcalls, List.append_nil], fun g => rfl⟩
  · exact ⟨[_], rfl, fun g => rfl⟩

/-- What a shift does to the screen behind the state. -/
theorem DisplayInv.shift_cells {d : Display} {size : ℤ × ℤ} (h : DisplayInv d size)
    {csi : CsiSequence} {f : CsiFunction} (hf : csi.function = some f) {shift : Shift}
    (hshift : d.state.shift (csiArgCount (csi.args.getD 0 0)) f = some shift) (row col : ℤ) :
    (d.apply fun s => s.onCsi csi).screen.getCell row col = d.screen.shifted shift row col := by
  obtain ⟨hin, hway, hmoves⟩ := shift_spec h.cursor (csiArgCount_pos _) hshift
  have honCsi : d.state.onCsi csi = (d.state.scroll shift.rect shift.downward
      shift.rightward).clampCursor.updatecursor d.state.pos true := by
    unfold VTermState.onCsi
    rw [hf, Option.bind_some, csiCase_shift hshift]
  have hinv : (d.state.onCsi csi).CursorInv size := by
    rw [honCsi]
    exact (h.cursor.1.scroll hin _ _).clampCursor.updatecursor _ true
  obtain ⟨-, hsafe⟩ := h.apply (f := fun s => s.onCsi csi) hinv
  obtain ⟨moved, hcalls, hmoved⟩ := calls_clamped
    (d.state.scroll shift.rect shift.downward shift.rightward) d.state.pos
  have hscroll : (d.state.scroll shift.rect shift.downward shift.rightward).calls =
      [.scrollrect shift.rect shift.downward shift.rightward] := by
    unfold VTermState.scroll VTermState.call
    rw [if_neg hmoves]
    dsimp only
    rw [h.calls]
    rfl
  have hsize : (d.screen.rows, d.screen.cols) = (d.state.rows, d.state.cols) :=
    h.size.trans h.cursor.1.size.symm
  obtain ⟨hrows, hcols⟩ := Prod.mk.inj hsize
  have hgrid : (d.apply fun s => s.onCsi csi).screen.grid =
      d.screen.grid.scroll shift.rect shift.downward shift.rightward := by
    unfold Display.apply
    dsimp only
    rw [h.drained, VTermScreen.grid_run hsafe, honCsi, hcalls, hscroll, run_append, hmoved]
    rfl
  rw [← VTermScreen.grid_getCell, hgrid, TermGrid.getCell_scroll _ hway hmoves]
  · rfl
  · change shift.rect.InsideOf d.screen.rows d.screen.cols
    rw [hrows, hcols]
    exact hin

/-- Wherever a run that stays on the screen has led, an editing function shifts the cells of its
rectangle, blanks those that nothing moves to, and changes no other cell. -/
theorem editing_shifts {cols rows : ℤ} (hcols : 1 ≤ cols) (hrows : 1 ≤ rows)
    (lowMemory : ℤ → ScreenCell) (stack : List ℕ) {es : List VTermEvent}
    (hall : AllSteps vtermStep StaysOnScreen (webvtermInit cols rows lowMemory stack) es)
    {str : List UInt8} {command : UInt8} {f : CsiFunction}
    (hf : (parseCsi str command).function = some f) {shift : Shift} :
    let d := (run vtermStep (webvtermInit cols rows lowMemory stack) es).display
    d.state.shift (csiArgCount ((parseCsi str command).args.getD 0 0)) f = some shift →
      ∀ row col, (d.call (.csi str command)).screen.getCell row col =
        d.screen.shifted shift row col := by
  intro d hshift row col
  have hinit : ∃ n, DisplayInv (webvtermInit cols rows lowMemory stack).display n :=
    ⟨_, displayInv_webvtermInit hcols hrows lowMemory stack⟩
  have hstep : ∀ t e, (∃ n, DisplayInv t.display n) → StaysOnScreen t e →
      ∃ n, DisplayInv (vtermStep t e).display n := fun t e ⟨n, hn⟩ he => (hn.vtermStep he).1
  obtain ⟨n, hn⟩ := invariant_run vtermStep hstep hinit hall
  exact hn.shift_cells hf hshift row col

/-- DL takes the first of three lines away; the cell at its start is that of the second. -/
theorem editing_shifts_delete_line :
    let d := (run vtermStep (webvtermInit 4 3 (fun _ => .blank .zero) [])
      [.recv [0x61, 0x62, 0x0d, 0x0a, 0x63, 0x1b, 0x5b, 0x48]]).display
    (d.call (.csi [0x31] 0x4d)).screen.getCell 0 0 =
      d.screen.shifted ⟨⟨0, 3, 0, 4⟩, 1, 0⟩ 0 0 :=
  editing_shifts (by decide) (by decide) _ _ (by decide)
    (show (parseCsi [0x31] 0x4d).function = some .dl by decide) (by decide) 0 0

end Jterm.Vterm
