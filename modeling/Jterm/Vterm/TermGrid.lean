import Jterm.Lib.Grid
import Jterm.Vterm.FlushDamage
import Jterm.Vterm.OnScreen

/-!
The screen as a grid: a scroll moves its rectangle at once and blanks what it leaves behind.
screen.c gets there by copying within one buffer, row by row from the end that is not read
any more, and keeps a record of damage and of pending scrolls beside it, which has no part in
what the cells are.
-/
namespace Jterm.Vterm

open Runs Grid

/-- Two screens of cells; `pen` is what a glyph is put with. -/
structure TermGrid where
  rows : ℤ
  cols : ℤ
  pen : VTermPen
  reverse : Bool
  onAlt : Bool
  main : ℤ → ℤ → ScreenCell
  alt : ℤ → ℤ → ScreenCell

/-- No character; those behind the first are left. -/
def ScreenCell.cleared (pen : VTermPen) (cell : ScreenCell) : ScreenCell :=
  ⟨cell.chars.set 0 0, pen⟩

def ScreenCell.withGlyph (pen : VTermPen) (chars : List ℕ) (cell : ScreenCell) : ScreenCell :=
  ⟨writeChars cell.chars chars, if chars = [] then cell.pen else pen⟩

def ScreenCell.gap (cell : ScreenCell) : ScreenCell := { cell with chars := cell.chars.set 0 wideGap }

namespace TermGrid

def Inside (g : TermGrid) (row col : ℤ) : Prop := 0 ≤ row ∧ row < g.rows ∧ 0 ≤ col ∧ col < g.cols

instance (g : TermGrid) (row col : ℤ) : Decidable (g.Inside row col) :=
  inferInstanceAs (Decidable (_ ∧ _))

def cells (g : TermGrid) : ℤ → ℤ → ScreenCell := if g.onAlt then g.alt else g.main

def withCells (g : TermGrid) (cells : ℤ → ℤ → ScreenCell) : TermGrid :=
  if g.onAlt then { g with alt := cells } else { g with main := cells }

/-- A glyph takes one cell, and marks those that it covers to its right. -/
def putglyph (g : TermGrid) (chars : List ℕ) (width : ℤ) (pos : VTermPos) : TermGrid :=
  if g.Inside pos.row pos.col then
    g.withCells fun row col =>
      if row = pos.row ∧ col = pos.col then (g.cells row col).withGlyph g.pen chars
      else if row = pos.row ∧ pos.col < col ∧ col < pos.col + width ∧ g.Inside row col then
        (g.cells row col).gap
      else g.cells row col
  else g

def erase (g : TermGrid) (rect : VTermRect) : TermGrid :=
  g.withCells
    (changed (fun row col => rect.HasCell row col ∧ g.Inside row col) (.cleared g.pen) g.cells)

def move (g : TermGrid) (dest : VTermRect) (downward rightward : ℤ) : TermGrid :=
  g.withCells (moved dest.HasCell downward rightward g.cells)

def scroll (g : TermGrid) (rect : VTermRect) (downward rightward : ℤ) : TermGrid :=
  vtermScrollRect rect downward rightward (fun dest _ g => g.move dest downward rightward)
    (fun rect g => g.erase rect) g

def settermprop (g : TermGrid) : TermProp → TermGrid
  | .altscreen on => { g with onAlt := on }
  | .reverse on => { g with reverse := on }
  | _ => g

/-- What fits is kept. -/
def refitted (g : TermGrid) (cells : ℤ → ℤ → ScreenCell) (rows cols : ℤ) : ℤ → ℤ → ScreenCell :=
  fun row col =>
    if g.Inside row col ∧ row < rows ∧ col < cols then cells row col else .blank g.pen

def resize (g : TermGrid) (rows cols : ℤ) : TermGrid :=
  { g with
    rows := rows
    cols := cols
    main := g.refitted g.main rows cols
    alt := g.refitted g.alt rows cols }

def exec (g : TermGrid) : ScreenCall → TermGrid
  | .putglyph chars width pos => g.putglyph chars width pos
  | .scrollrect rect downward rightward => g.scroll rect downward rightward
  | .erase rect => g.erase rect
  | .setpenattr attr => { g with pen := g.pen.set attr }
  | .settermprop prop => g.settermprop prop
  | .resize rows cols => g.resize rows cols
  | .movecursor _ _ _ | .setmousefunc _ | .bell | .flushDamage => g

/-- `vterm_screen_get_cell` -/
def getCell (g : TermGrid) (row col : ℤ) : VTermScreenCell :=
  let cell := g.cells row col
  { chars := (cell.chars.takeWhile (· ≠ 0)).map fun c => c.toUInt32
    reverse := cell.pen.reverse ^^ g.reverse
    fg := cell.pen.fg
    bg := cell.pen.bg }

end TermGrid

namespace VTermScreen

/-- The cells of the screen and what decides how they are changed. -/
def grid (s : VTermScreen) : TermGrid :=
  { rows := s.rows
    cols := s.cols
    pen := s.pen
    reverse := s.globalReverse
    onAlt := s.onBuffer1
    main := s.buffer0
    alt := s.buffer1 }

theorem grid_cells (s : VTermScreen) : s.grid.cells = s.buffer := rfl

theorem grid_getCell (s : VTermScreen) (row col : ℤ) : s.grid.getCell row col = s.getCell row col :=
  rfl

theorem grid_setBuffer (s : VTermScreen) (buffer : ℤ → ℤ → ScreenCell) :
    (s.setBuffer buffer).grid = s.grid.withCells buffer := by
  cases hon : s.onBuffer1 with
  | false => simp [setBuffer, TermGrid.withCells, grid, hon]
  | true => simp [setBuffer, TermGrid.withCells, grid, hon]

theorem DamageOnly.grid {s t : VTermScreen} (h : s.DamageOnly t) : t.grid = s.grid := by
  rw [h]
  rfl

theorem setBuffer_buffer (s : VTermScreen) : s.setBuffer s.buffer = s := by
  unfold setBuffer buffer
  split
  · rfl
  · rfl

theorem inside_setBuffer (s : VTermScreen) (buffer : ℤ → ℤ → ScreenCell) (row col : ℤ) :
    (s.setBuffer buffer).Inside row col ↔ s.Inside row col :=
  inside_of_size (size_setBuffer s buffer) row col

/-- A row that is moved inside the screen is a copied row of the grid. -/
theorem moveRow_inside {s : VTermScreen} {row col srcRow srcCol n : ℤ} (hdest : s.Inside row col)
    (hsrc : s.Inside srcRow srcCol) :
    s.moveRow row col srcRow srcCol n = s.setBuffer
      (copyRow (fun c => col ≤ c ∧ c < col + n) (srcRow - row) (srcCol - col) s.buffer row) := by
  unfold moveRow copyRow
  dsimp only
  rw [if_pos hdest]
  congr 1
  funext r c
  by_cases hcell : r = row ∧ col ≤ c ∧ c < col + n
  · rw [if_pos hcell, if_pos hcell, if_pos hsrc, hcell.1]
    congr 1
    · omega
    · omega
  · rw [if_neg hcell, if_neg hcell]

/-- The loop of moverect_internal, where no row and no column is outside the screen. -/
theorem foldl_moveRow {dest src : VTermRect} (rows : List ℤ) {s : VTermScreen}
    (hfits : ∀ row ∈ rows, 0 ≤ row ∧ s.Inside row dest.startCol ∧
      s.Inside (row + (src.startRow - dest.startRow)) src.startCol) :
    rows.foldl (fun s row =>
        if row < 0 then s
        else
          s.moveRow row dest.startCol (row + (src.startRow - dest.startRow)) src.startCol
            (src.endCol - src.startCol)) s =
      s.setBuffer (rows.foldl (copyRow
        (fun c => dest.startCol ≤ c ∧ c < dest.startCol + (src.endCol - src.startCol))
        (src.startRow - dest.startRow) (src.startCol - dest.startCol)) s.buffer) := by
  induction rows generalizing s with
  | nil => exact (setBuffer_buffer s).symm
  | cons row rows ih =>
    obtain ⟨hrow, hdest, hsrc⟩ := hfits row List.mem_cons_self
    have hdown : row + (src.startRow - dest.startRow) - row = src.startRow - dest.startRow := by
      omega
    rw [List.foldl_cons, List.foldl_cons, if_neg (by omega), moveRow_inside hdest hsrc, hdown, ih,
      setBuffer_setBuffer, buffer_setBuffer]
    intro r hr
    rw [inside_setBuffer, inside_setBuffer]
    exact hfits r (List.mem_cons_of_mem row hr)

theorem readsFirst_moveRows (dest src : VTermRect) :
    ReadsFirst (src.startRow - dest.startRow) (moveRows dest src) := by
  unfold moveRows
  dsimp only
  split
  · rename_i hup
    exact readsFirst_up hup _
  · rename_i hdown
    exact readsFirst_down (by omega) _

theorem mem_moveRows_iff {dest src : VTermRect} {row : ℤ} :
    row ∈ moveRows dest src ↔ dest.HasRow row := by
  refine ⟨mem_moveRows, ?_⟩
  intro hrow
  have hmem : row ∈ (List.range (dest.endRow - dest.startRow).toNat).map
      fun (k : ℕ) => dest.startRow + (k : ℤ) := by
    unfold VTermRect.HasRow at hrow
    refine List.mem_map.mpr ⟨(row - dest.startRow).toNat, List.mem_range.mpr ?_, ?_⟩
    · omega
    · omega
  unfold moveRows
  dsimp only
  split
  · exact List.mem_reverse.mpr hmem
  · exact hmem

theorem grid_foldl_prescroll (rects : List VTermRect) (s : VTermScreen) :
    ∃ pushes, rects.foldl prescroll s = { s with scrollPushes := pushes } := by
  refine invariant_of_step prescroll
    (fun t : VTermScreen => ∃ pushes, t = { s with scrollPushes := pushes }) ?_ rects ⟨_, rfl⟩
  intro t rect ht
  obtain ⟨pushes, rfl⟩ := ht
  unfold prescroll
  split
  · exact ⟨_, rfl⟩
  · exact ⟨_, rfl⟩

/-- The rows are copied in the order that moves them at once. -/
theorem grid_moverectInternal {s : VTermScreen} {dest src : VTermRect} (hfits : s.MoveFits dest src)
    (hwidth : src.endCol - src.startCol = dest.endCol - dest.startCol) :
    (moverectInternal dest src s).grid =
      s.grid.move dest (src.startRow - dest.startRow) (src.startCol - dest.startCol) := by
  obtain ⟨pushes, hpushed⟩ := grid_foldl_prescroll (prescrollRects dest src) s
  unfold moverectInternal
  dsimp only
  rw [hpushed, foldl_moveRow, foldl_copyRow _ (readsFirst_moveRows dest src), grid_setBuffer]
  · unfold TermGrid.move
    change s.grid.withCells _ = s.grid.withCells _
    congr 1
    funext r c
    unfold moved
    refine if_congr ?_ rfl rfl
    dsimp only
    rw [mem_moveRows_iff]
    refine and_congr_right fun _ => and_congr_right fun _ => ?_
    omega
  · intro row hrow
    obtain ⟨hpos, hcells⟩ := hfits.2 row hrow
    obtain ⟨hdest, hsrc⟩ := hcells 0 (Int.le_refl 0) (by have := hfits.1; omega)
    rw [Int.add_zero] at hdest hsrc
    exact ⟨hpos, hdest, hsrc⟩

theorem grid_eraseInternal (rect : VTermRect) (s : VTermScreen) :
    (eraseInternal rect s).grid = s.grid.erase rect := grid_setBuffer s _

theorem grid_scrollrect {s : VTermScreen} {rect : VTermRect} {downward rightward : ℤ}
    (hfits : ¬ rect.ScrollsAway downward rightward →
      s.MoveFits (rect.scrollDest downward rightward) (rect.scrollSrc downward rightward)) :
    (s.scrollrect rect downward rightward).grid = s.grid.scroll rect downward rightward := by
  rw [(damageOnly_scrollrect s rect downward rightward).grid]
  unfold TermGrid.scroll vtermScrollRect
  by_cases haway : rect.ScrollsAway downward rightward
  · rw [if_pos haway, if_pos haway]
    exact grid_eraseInternal rect s
  · have hdown : (rect.scrollSrc downward rightward).startRow -
        (rect.scrollDest downward rightward).startRow = downward := by
      simp only [VTermRect.scrollSrc, VTermRect.scrollDest]
      split <;> omega
    have hright : (rect.scrollSrc downward rightward).startCol -
        (rect.scrollDest downward rightward).startCol = rightward := by
      simp only [VTermRect.scrollSrc, VTermRect.scrollDest]
      split <;> omega
    have hwidth : (rect.scrollSrc downward rightward).endCol -
          (rect.scrollSrc downward rightward).startCol =
        (rect.scrollDest downward rightward).endCol -
          (rect.scrollDest downward rightward).startCol := by
      simp only [VTermRect.scrollSrc, VTermRect.scrollDest]
      split <;> omega
    rw [if_neg haway, if_neg haway, grid_eraseInternal, grid_moverectInternal (hfits haway) hwidth,
      hdown, hright]

theorem grid_putglyph (s : VTermScreen) (chars : List ℕ) (width : ℤ) (pos : VTermPos) :
    (s.putglyph chars width pos).grid = s.grid.putglyph chars width pos := by
  unfold putglyph TermGrid.putglyph
  by_cases hin : s.Inside pos.row pos.col
  · have hgrid : s.grid.Inside pos.row pos.col := hin
    rw [if_pos hin, if_pos hgrid]
    unfold markGap writeGlyph
    change (setBuffer _ _).grid = _
    rw [setBuffer_setBuffer, grid_setBuffer]
    congr 1
    funext row col
    rw [buffer_setBuffer]
    dsimp only
    by_cases hcell : row = pos.row ∧ col = pos.col
    · rw [if_pos hcell, if_pos hcell, if_neg (by omega)]
      rfl
    · rw [if_neg hcell, if_neg hcell]
      refine if_congr ?_ rfl rfl
      rw [inside_setBuffer]
      exact Iff.rfl
  · have hgrid : ¬ s.grid.Inside pos.row pos.col := hin
    rw [if_neg hin, if_neg hgrid]

theorem grid_resize (s : VTermScreen) (rows cols : ℤ) :
    (s.resize rows cols).grid = s.grid.resize rows cols := by
  unfold resize
  dsimp only
  split_ifs
  · rfl
  · rfl
  · rfl
  · rfl

/-- A call that scrolls inside the screen does to the cells what it does to the grid. -/
theorem grid_exec {s : VTermScreen} {c : ScreenCall} (h : c.Safe s) :
    (s.exec c).grid = s.grid.exec c := by
  cases c with
  | putglyph chars width pos => exact grid_putglyph s chars width pos
  | scrollrect rect downward rightward => exact grid_scrollrect h.2
  | erase rect => exact grid_eraseInternal rect s
  | settermprop prop =>
    cases prop with
    | altscreen on =>
      cases on with
      | false => rfl
      | true => rfl
    | _ => rfl
  | resize rows cols => exact grid_resize s rows cols
  | flushDamage => exact (damageOnly_flushDamage s).grid
  | _ => rfl

theorem grid_run {s : VTermScreen} {cs : List ScreenCall}
    (h : AllSteps exec (fun s c => c.Safe s) s cs) :
    (run exec s cs).grid = run TermGrid.exec s.grid cs := by
  induction cs generalizing s with
  | nil => rfl
  | cons c cs ih =>
    obtain ⟨hfirst, hrest⟩ := h
    rw [run, List.foldl_cons, run, List.foldl_cons, ← grid_exec hfirst]
    exact ih hrest

end VTermScreen

/-- The calls of events that keep the cursor on the screen are safe one after the other. -/
theorem eventCalls_safe {t : VTerm} {n : ℤ × ℤ} (h : DisplayInv t.display n)
    {es : List VTermEvent} (hall : AllSteps vtermStep StaysOnScreen t es) :
    AllSteps VTermScreen.exec (fun s c => c.Safe s) t.display.screen (eventCalls t es) := by
  induction es generalizing t n with
  | nil => trivial
  | cons e es ih =>
    obtain ⟨⟨m, hnext⟩, hsafe⟩ := h.vtermStep hall.1
    refine (allSteps_append _ _ _ _ _).mpr ⟨hsafe, ?_⟩
    rw [← vtermStep_screen]
    exact ih hnext hall.2

/-- On every run that stays on the screen the cells are those of a grid that is given the same
calls. -/
theorem screen_refines_grid {cols rows : ℤ} (hcols : 1 ≤ cols) (hrows : 1 ≤ rows)
    (lowMemory : ℤ → ScreenCell) (stack : List ℕ) {es : List VTermEvent}
    (hall : AllSteps vtermStep StaysOnScreen (webvtermInit cols rows lowMemory stack) es) :
    let t := webvtermInit cols rows lowMemory stack
    (run vtermStep t es).display.screen.grid =
      run TermGrid.exec t.display.screen.grid (eventCalls t es) := by
  intro t
  have hinit : DisplayInv t.display (rows, cols) :=
    displayInv_webvtermInit hcols hrows lowMemory stack
  rw [run_vtermStep_screen]
  exact VTermScreen.grid_run (eventCalls_safe hinit hall)

/-- Two lines of text, a line deleted above them and columns inserted in front of one. -/
theorem screen_refines_grid_edited :
    let t := webvtermInit 4 3 (fun _ => .blank .zero) []
    let es : List VTermEvent :=
      [.recv [0x61, 0x62, 0x0d, 0x0a, 0x63, 0x1b, 0x5b, 0x48, 0x1b, 0x5b, 0x4d], .flush,
        .recv [0x1b, 0x5b, 0x32, 0x40]]
    (run vtermStep t es).display.screen.grid =
      run TermGrid.exec t.display.screen.grid (eventCalls t es) :=
  screen_refines_grid (by decide) (by decide) _ _ (by decide)

/-! What a scroll in one direction leaves in a cell. -/

theorem VTermRect.scrollDest_hasCell {rect : VTermRect} {downward rightward row col : ℤ} :
    (rect.scrollDest downward rightward).HasCell row col ↔
      rect.HasCell row col ∧ rect.HasCell (row + downward) (col + rightward) := by
  simp only [VTermRect.HasCell, VTermRect.HasRow, VTermRect.scrollDest]
  split <;> split <;> omega

/-- In one direction, what is not kept is erased. -/
theorem VTermRect.scrollRest_hasCell {rect : VTermRect} {downward rightward row col : ℤ}
    (hway : downward = 0 ∨ rightward = 0) (hmoves : ¬ (downward = 0 ∧ rightward = 0))
    (haway : ¬ rect.ScrollsAway downward rightward) :
    (rect.scrollRest downward rightward).HasCell row col ↔
      rect.HasCell row col ∧ ¬ rect.HasCell (row + downward) (col + rightward) := by
  simp only [VTermRect.ScrollsAway, VTermRect.HasCell, VTermRect.HasRow,
    VTermRect.scrollRest] at haway ⊢
  split <;> split <;> split <;> split <;> omega

theorem VTermRect.not_hasCell_of_away {rect : VTermRect} {downward rightward row col : ℤ}
    (haway : rect.ScrollsAway downward rightward) (hcell : rect.HasCell row col) :
    ¬ rect.HasCell (row + downward) (col + rightward) := by
  simp only [VTermRect.ScrollsAway, VTermRect.HasCell, VTermRect.HasRow] at haway hcell ⊢
  omega

namespace TermGrid

theorem cells_withCells (g : TermGrid) (cells : ℤ → ℤ → ScreenCell) :
    (g.withCells cells).cells = cells := by
  unfold withCells TermGrid.cells
  split
  · simp
  · simp

theorem pen_withCells (g : TermGrid) (cells : ℤ → ℤ → ScreenCell) :
    (g.withCells cells).pen = g.pen ∧ (g.withCells cells).reverse = g.reverse ∧
      ∀ row col, (g.withCells cells).Inside row col ↔ g.Inside row col := by
  unfold withCells
  split
  · exact ⟨rfl, rfl, fun row col => Iff.rfl⟩
  · exact ⟨rfl, rfl, fun row col => Iff.rfl⟩

theorem pen_scroll (g : TermGrid) (rect : VTermRect) (downward rightward : ℤ) :
    (g.scroll rect downward rightward).pen = g.pen ∧
      (g.scroll rect downward rightward).reverse = g.reverse := by
  unfold scroll vtermScrollRect erase move
  split
  · exact ⟨(pen_withCells g _).1, (pen_withCells g _).2.1⟩
  · rw [(pen_withCells _ _).1, (pen_withCells _ _).2.1]
    exact ⟨(pen_withCells g _).1, (pen_withCells g _).2.1⟩

theorem cells_erase (g : TermGrid) (rect : VTermRect) (row col : ℤ) :
    (g.erase rect).cells row col =
      if rect.HasCell row col ∧ g.Inside row col then (g.cells row col).cleared g.pen
      else g.cells row col := by
  unfold erase
  rw [cells_withCells]
  rfl

/-- A cell is that from which it is scrolled, or blank when that is not in the rectangle. -/
theorem cells_scroll {g : TermGrid} {rect : VTermRect} {downward rightward : ℤ}
    (hin : rect.InsideOf g.rows g.cols) (hway : downward = 0 ∨ rightward = 0)
    (hmoves : ¬ (downward = 0 ∧ rightward = 0)) (row col : ℤ) :
    (g.scroll rect downward rightward).cells row col =
      if rect.HasCell row col then
        if rect.HasCell (row + downward) (col + rightward) then
          g.cells (row + downward) (col + rightward)
        else (g.cells row col).cleared g.pen
      else g.cells row col := by
  have hinside : rect.HasCell row col → g.Inside row col := by
    unfold VTermRect.InsideOf at hin
    unfold VTermRect.HasCell VTermRect.HasRow Inside
    omega
  unfold scroll vtermScrollRect
  by_cases haway : rect.ScrollsAway downward rightward
  · rw [if_pos haway, cells_erase]
    by_cases hcell : rect.HasCell row col
    · rw [if_pos ⟨hcell, hinside hcell⟩, if_pos hcell,
        if_neg (VTermRect.not_hasCell_of_away haway hcell)]
    · rw [if_neg (fun h => hcell h.1), if_neg hcell]
  · rw [if_neg haway, cells_erase]
    unfold move moved
    simp only [(pen_withCells g _).1, (pen_withCells g _).2.2, cells_withCells,
      VTermRect.scrollDest_hasCell, VTermRect.scrollRest_hasCell hway hmoves haway]
    by_cases hcell : rect.HasCell row col
    · by_cases hfrom : rect.HasCell (row + downward) (col + rightward)
      · simp [hcell, hfrom]
      · simp [hcell, hfrom, hinside hcell]
    · simp [hcell]

/-- An erased cell has no characters, and the colours of the pen. -/
def blankCell (g : TermGrid) : VTermScreenCell :=
  { chars := []
    reverse := g.pen.reverse ^^ g.reverse
    fg := g.pen.fg
    bg := g.pen.bg }

theorem takeWhile_cleared (pen : VTermPen) (cell : ScreenCell) :
    (cell.cleared pen).chars.takeWhile (· ≠ 0) = [] := by
  unfold ScreenCell.cleared
  cases cell.chars with
  | nil => rfl
  | cons c chars => simp

theorem getCell_scroll {g : TermGrid} {rect : VTermRect} {downward rightward : ℤ}
    (hin : rect.InsideOf g.rows g.cols) (hway : downward = 0 ∨ rightward = 0)
    (hmoves : ¬ (downward = 0 ∧ rightward = 0)) (row col : ℤ) :
    (g.scroll rect downward rightward).getCell row col =
      if rect.HasCell row col then
        if rect.HasCell (row + downward) (col + rightward) then
          g.getCell (row + downward) (col + rightward)
        else g.blankCell
      else g.getCell row col := by
  unfold getCell
  dsimp only
  rw [cells_scroll hin hway hmoves, (pen_scroll g rect downward rightward).2]
  by_cases hcell : rect.HasCell row col
  · by_cases hfrom : rect.HasCell (row + downward) (col + rightward)
    · simp only [hcell, hfrom, if_true]
    · simp only [hcell, hfrom, if_true, if_false, takeWhile_cleared]
      rfl
  · simp only [hcell, if_false]

end TermGrid

end Jterm.Vterm
