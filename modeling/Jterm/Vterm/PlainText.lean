import Jterm.Lib.Typewriter
import Jterm.Vterm.Prescroll
import Jterm.Vterm.TermGrid
import Jterm.Vterm.Utf8

/-!
Plain text on the terminal: characters of one column, carriage returns, line feeds and backspaces, in
the modes that a reset leaves. The screen and what it has pushed to the scrollback are a typewriter's
sheet and the window that follows its head.
-/
namespace Jterm.Vterm

open Runs Typewriter

/-- A character of one column; a combining one takes none. -/
def Printable (cp : ℕ) : Prop := IsText cp ∧ unicodeWidth cp = 1

instance : DecidablePred Printable := fun _ => inferInstanceAs (Decidable (_ ∧ _))

theorem Printable.not_combining {cp : ℕ} (h : Printable cp) : unicodeIsCombining cp = false := by
  by_contra hcombining
  have hzero := unicodeWidth_of_combining (Bool.eq_true_of_not_eq_false hcombining)
  have hone := h.2
  omega

theorem Printable.ne_zero {cp : ℕ} (h : Printable cp) : cp ≠ 0 := by
  have hlow := h.1.1
  omega

def typedCell (blank : VTermScreenCell) (cp : ℕ) : VTermScreenCell :=
  { blank with chars := [cp.toUInt32] }

/-! The screen. -/

/-- The colours that text is written in, what had been pushed before, and the height of the window. -/
structure Origin where
  blank : VTermScreenCell
  pushed : List Line
  height : ℤ

/-- The screen is the window of the sheet, and the lines above have been pushed. -/
structure Shown (o : Origin) (x : VTermScreen)
    (p : Sheet VTermScreenCell) : Prop where
  rows : x.rows = o.height
  height : 2 ≤ x.rows
  wide : 2 ≤ x.cols
  width : p.width = x.cols
  placed : p.Placed
  pen : x.grid.blankCell = o.blank
  cells : ∀ row col, x.Inside row col → x.getCell row col = p.ink (p.top x.rows + row) col
  below : ∀ line col, p.top x.rows + x.rows ≤ line → p.ink line col = o.blank
  pushes : x.scrollPushes = o.pushed ++ p.above x.rows

namespace Shown

variable {o : Origin} {x : VTermScreen}
  {p q : Sheet VTermScreenCell}

/-- The head may move along its line. -/
theorem moved (h : Shown o x p) (hplaced : q.Placed) (hline : q.line = p.line)
    (hink : q.ink = p.ink) (hwidth : q.width = p.width) : Shown o x q := by
  have htop : q.top x.rows = p.top x.rows := by
    unfold Sheet.top
    rw [hline]
  have habove : q.above x.rows = p.above x.rows := by
    unfold Sheet.above
    rw [htop, hink, hwidth]
  refine ⟨h.rows, h.height, h.wide, hwidth.trans h.width, hplaced, h.pen, ?_, ?_, h.pushes.trans (by rw [habove])⟩
  · rw [htop, hink]
    exact h.cells
  · rw [htop, hink]
    exact h.below

/-- The rows of the screen are the lines in the window. -/
theorem lines (h : Shown o x p) : x.firstRows x.rows = p.shown o.height := by
  unfold VTermScreen.firstRows Sheet.shown
  rw [← h.rows, h.width]
  refine List.map_congr_left fun row hrow => List.map_congr_left fun col hcol => ?_
  have hrow' := List.mem_range.mp hrow
  have hcol' := List.mem_range.mp hcol
  exact h.cells row col (by unfold VTermScreen.Inside; omega)

theorem feed_inside (h : Shown o x p) (hlast : p.line - p.top x.rows ≠ x.rows - 1) :
    Shown o x p.feed := by
  have htop := Sheet.top_feed_of_not_last hlast
  have hplaced := Sheet.placed_press h.placed .feed
  have habove : p.feed.above x.rows = p.above x.rows := by
    unfold Sheet.above
    rw [htop]
    rfl
  refine ⟨h.rows, h.height, h.wide, h.width, hplaced, h.pen, ?_, ?_, h.pushes.trans (by rw [habove])⟩
  · rw [htop]
    exact h.cells
  · rw [htop]
    exact h.below

theorem region_insideOf (h : Shown o x p) :
    VTermRect.InsideOf ⟨0, x.rows, 0, x.cols⟩ x.rows x.cols := by
  have hheight := h.height
  have hcol := h.placed.col
  have hwidth := h.width
  unfold VTermRect.InsideOf
  dsimp only
  omega

theorem blankCell_withCells (g : TermGrid) (cells : ℤ → ℤ → ScreenCell) :
    (g.withCells cells).blankCell = g.blankCell := by
  unfold TermGrid.blankCell
  rw [(TermGrid.pen_withCells g cells).1, (TermGrid.pen_withCells g cells).2.1]

theorem blankCell_scroll (g : TermGrid) (rect : VTermRect) (downward rightward : ℤ) :
    (g.scroll rect downward rightward).blankCell = g.blankCell := by
  unfold TermGrid.blankCell
  rw [(TermGrid.pen_scroll g rect downward rightward).1,
    (TermGrid.pen_scroll g rect downward rightward).2]

/-- A scroll of the whole screen by a line moves the window down by one. -/
theorem feed_last (h : Shown o x p) (hlast : p.line - p.top x.rows = x.rows - 1) :
    Shown o (x.scrollrect ⟨0, x.rows, 0, x.cols⟩ 1 0) p.feed := by
  have hplaced := Sheet.placed_press h.placed .feed
  have hheight := h.height
  have hcol := h.placed.col
  have hwidth := h.width
  have htop := Sheet.top_feed_of_last hlast
  have hin := h.region_insideOf
  obtain ⟨hrows, hcols⟩ := Prod.mk.inj (VTermScreen.size_scrollrect x ⟨0, x.rows, 0, x.cols⟩ 1 0)
  have haway : ¬ VTermRect.ScrollsAway ⟨0, x.rows, 0, x.cols⟩ 1 0 := by
    unfold VTermRect.ScrollsAway
    dsimp only
    omega
  have hgrid : (x.scrollrect ⟨0, x.rows, 0, x.cols⟩ 1 0).grid =
      x.grid.scroll ⟨0, x.rows, 0, x.cols⟩ 1 0 :=
    VTermScreen.grid_scrollrect fun haway => hin.moveFits haway
  have hpushes : (x.scrollrect ⟨0, x.rows, 0, x.cols⟩ 1 0).scrollPushes =
      x.scrollPushes ++ x.firstRows 1 := by
    have hup : x.ScrollsUp ⟨0, x.rows, 0, x.cols⟩ 1 0 := ⟨⟨rfl, rfl, rfl⟩, by decide, rfl⟩
    have hall : x.CallPushesAll (.scrollrect ⟨0, x.rows, 0, x.cols⟩ 1 0) := by
      change x.PushesAll _ 1 0
      unfold VTermScreen.PushesAll
      rw [if_pos hup]
      exact .inl haway
    refine (VTermScreen.scrollPushes_exec hall).trans ?_
    change x.scrollPushes ++ x.scrolledOff _ 1 0 = _
    unfold VTermScreen.scrolledOff
    rw [if_pos hup]
    dsimp only
    rw [Int.min_eq_left (by omega)]
  refine ⟨?_, ?_, ?_, ?_, hplaced, ?_, ?_, ?_, ?_⟩
  · exact hrows.trans h.rows
  · rw [hrows]
    exact hheight
  · rw [hcols]
    exact h.wide
  · rw [hcols]
    exact hwidth
  · rw [hgrid, blankCell_scroll]
    exact h.pen
  · intro row col hcell
    rw [VTermScreen.inside_of_size (VTermScreen.size_scrollrect x _ 1 0)] at hcell
    have hregion : VTermRect.HasCell ⟨0, x.rows, 0, x.cols⟩ row col := by
      unfold VTermScreen.Inside at hcell
      unfold VTermRect.HasCell VTermRect.HasRow
      dsimp only
      omega
    rw [hrows, htop, ← VTermScreen.grid_getCell, hgrid,
      TermGrid.getCell_scroll hin (.inr rfl) (by decide), if_pos hregion, Int.add_zero]
    change _ = p.ink (p.top x.rows + 1 + row) col
    unfold VTermScreen.Inside at hcell
    by_cases hbottom : row = x.rows - 1
    · rw [if_neg (by unfold VTermRect.HasCell VTermRect.HasRow; dsimp only; omega),
        h.below _ col (by omega)]
      exact h.pen
    · rw [if_pos (by unfold VTermRect.HasCell VTermRect.HasRow; dsimp only; omega),
        VTermScreen.grid_getCell, h.cells (row + 1) col (by unfold VTermScreen.Inside; omega)]
      congr 1
      omega
  · rw [hrows, htop]
    intro line col hline
    exact h.below line col (by omega)
  · rw [hpushes, h.pushes, hrows, Sheet.above_feed htop, List.append_assoc, hwidth]
    refine congrArg (fun lines => o.pushed ++ (p.above x.rows ++ lines)) ?_
    unfold VTermScreen.firstRows
    refine congrArg (fun line => [line]) (List.map_congr_left fun col hmem => ?_)
    have hlt := List.mem_range.mp hmem
    have hcell := h.cells 0 col (by unfold VTermScreen.Inside; omega)
    rw [Int.add_zero] at hcell
    exact hcell

theorem takeWhile_withGlyph (pen : VTermPen) {cp : ℕ} (hcp : cp ≠ 0) (cell : ScreenCell) :
    (cell.withGlyph pen [cp]).chars.takeWhile (· ≠ 0) = [cp] := by
  simp [ScreenCell.withGlyph, writeChars, maxCharsPerCell, hcp]

/-- A glyph at the head. -/
theorem write (h : Shown o x p) {cp : ℕ} (hcp : Printable cp) :
    Shown o (x.putglyph [cp] 1 ⟨p.line - p.top x.rows, p.col⟩)
      (p.write (typedCell o.blank cp)) := by
  have hheight := h.height
  have hcol := h.placed.col
  have hwidth := h.width
  have hwindow := Sheet.line_in_window (show 0 < x.rows by omega) h.placed.line
  have hin : x.grid.Inside (p.line - p.top x.rows) p.col := by
    unfold TermGrid.Inside VTermScreen.grid
    dsimp only
    omega
  obtain ⟨hrows, hcols⟩ := Prod.mk.inj
    (VTermScreen.size_putglyph x [cp] 1 ⟨p.line - p.top x.rows, p.col⟩)
  have hgrid := VTermScreen.grid_putglyph x [cp] 1 ⟨p.line - p.top x.rows, p.col⟩
  unfold TermGrid.putglyph at hgrid
  rw [if_pos hin] at hgrid
  have hpushes : (x.putglyph [cp] 1 ⟨p.line - p.top x.rows, p.col⟩).scrollPushes =
      x.scrollPushes := by
    have hnone := VTermScreen.scrollPushes_exec (s := x)
      (c := .putglyph [cp] 1 ⟨p.line - p.top x.rows, p.col⟩) trivial
    exact hnone.trans (List.append_nil _)
  refine ⟨?_, ?_, ?_, ?_, h.placed.write _, ?_, ?_, ?_, ?_⟩
  · exact hrows.trans h.rows
  · rw [hrows]
    exact hheight
  · rw [hcols]
    exact h.wide
  · rw [hcols]
    exact hwidth
  · rw [hgrid, blankCell_withCells]
    exact h.pen
  · intro row col hcell
    rw [VTermScreen.inside_of_size (VTermScreen.size_putglyph x _ _ _)] at hcell
    have hbefore := h.cells row col hcell
    rw [hrows, ← VTermScreen.grid_getCell, hgrid]
    change _ = if p.top x.rows + row = p.line ∧ col = p.col then typedCell o.blank cp
      else p.ink (p.top x.rows + row) col
    unfold TermGrid.getCell
    rw [TermGrid.cells_withCells, (TermGrid.pen_withCells _ _).2.1]
    by_cases hhead : p.top x.rows + row = p.line ∧ col = p.col
    · rw [if_pos hhead, if_pos (by dsimp only; omega)]
      dsimp only
      rw [takeWhile_withGlyph _ hcp.ne_zero, ← h.pen]
      rfl
    · rw [if_neg hhead, if_neg (by dsimp only; omega), if_neg (by dsimp only; omega), ← hbefore]
      rfl
  · rw [hrows]
    intro line col hline
    change (if line = p.line ∧ col = p.col then _ else p.ink line col) = o.blank
    have hline' : p.top x.rows + x.rows ≤ line := hline
    rw [if_neg (by omega)]
    exact h.below line col hline
  · rw [hpushes, h.pushes, hrows, Sheet.above_write (by omega) h.placed.line]

end Shown

/-! The state. -/

/-- The modes and margins of a reset, and the cursor at the head. -/
structure Heads (s : VTermState) (p : Sheet VTermScreenCell) : Prop where
  autowrap : s.mode.autowrap = true
  insert : s.mode.insert = false
  newline : s.mode.newline = false
  region : s.scrollregion = s.screenRect
  cols : s.cols = p.width
  pos : s.pos = ⟨p.line - p.top s.rows, p.col⟩
  phantom : s.atPhantom = p.full

/-- The screen shows the sheet once it has done what it is asked for. -/
structure Follows (o : Origin) (x : VTermScreen) (s : VTermState)
    (p : Sheet VTermScreenCell) : Prop where
  heads : Heads s p
  shown : Shown o (run VTermScreen.exec x s.calls) p
  rows : (run VTermScreen.exec x s.calls).rows = s.rows

namespace Follows

variable {o : Origin} {x : VTermScreen} {s : VTermState}
  {p : Sheet VTermScreenCell}

theorem linefeed (h : Follows o x s p) : Follows o x s.linefeed p.feed := by
  obtain ⟨⟨hwrap, hinsert, hnewline, hregion, hcols, hpos, hphantom⟩, hshown, hrows⟩ := h
  have hheight := hshown.height
  have hwidth := hshown.width
  have hwindow := Sheet.line_in_window (show 0 < s.rows by omega) hshown.placed.line
  have hbottom : s.scrollregionBottom = s.rows := congrArg VTermRect.endRow hregion
  have hrow : s.pos.row = p.line - p.top s.rows := by rw [hpos]
  unfold VTermState.linefeed
  by_cases hlast : p.line - p.top s.rows = s.rows - 1
  · rw [if_pos (by omega), VTermState.scroll, if_neg (by decide), hregion]
    have htop := Sheet.top_feed_of_last hlast
    have hregion' : s.screenRect = ⟨0, (run VTermScreen.exec x s.calls).rows, 0,
        (run VTermScreen.exec x s.calls).cols⟩ := by
      unfold VTermState.screenRect
      rw [hrows, hcols, hwidth]
    have hscrolled : run VTermScreen.exec x (s.call (.scrollrect s.screenRect 1 0)).calls =
        (run VTermScreen.exec x s.calls).scrollrect ⟨0, (run VTermScreen.exec x s.calls).rows, 0,
          (run VTermScreen.exec x s.calls).cols⟩ 1 0 := by
      rw [VTermState.call, run_append, hregion']
      rfl
    refine ⟨⟨hwrap, hinsert, hnewline, hregion, hcols, ?_, hphantom⟩, ?_, ?_⟩
    · change s.pos = ⟨p.line + 1 - p.feed.top s.rows, p.col⟩
      rw [hpos, htop]
      simp only [VTermPos.mk.injEq, and_true]
      omega
    · rw [hscrolled]
      rw [← hrows] at hlast
      exact hshown.feed_last hlast
    · rw [hscrolled]
      exact (Prod.mk.inj (VTermScreen.size_scrollrect _ _ 1 0)).1.trans hrows
  · rw [if_neg (by omega), if_pos (by omega)]
    have htop := Sheet.top_feed_of_not_last hlast
    refine ⟨⟨hwrap, hinsert, hnewline, hregion, hcols, ?_, hphantom⟩, ?_, hrows⟩
    · change (⟨s.pos.row + 1, s.pos.col⟩ : VTermPos) = ⟨p.line + 1 - p.feed.top s.rows, p.col⟩
      rw [hpos, htop]
      simp only [VTermPos.mk.injEq, and_true]
      omega
    · exact hshown.feed_inside (by rw [hrows]; exact hlast)

/-- The head moves along its line, and the cursor with it. -/
theorem along (h : Follows o x s p) {t : VTermState} {q : Sheet VTermScreenCell}
    (hheads : Heads t q) (hplaced : q.Placed) (hline : q.line = p.line) (hink : q.ink = p.ink)
    (hwidth : q.width = p.width) (hcalls : t.calls = s.calls) (hrows : t.rows = s.rows) :
    Follows o x t q := by
  refine ⟨hheads, ?_, ?_⟩
  · rw [hcalls]
    exact h.shown.moved hplaced hline hink hwidth
  · rw [hcalls, hrows]
    exact h.rows

theorem movecursor (h : Follows o x s p) (pos oldpos : VTermPos) (visible : Bool) :
    Follows o x (s.call (.movecursor pos oldpos visible)) p := by
  obtain ⟨hheads, hshown, hrows⟩ := h
  have hcalls : run VTermScreen.exec x (s.call (.movecursor pos oldpos visible)).calls =
      run VTermScreen.exec x s.calls := by
    rw [VTermState.call, run_append]
    rfl
  exact ⟨⟨hheads.autowrap, hheads.insert, hheads.newline, hheads.region, hheads.cols, hheads.pos,
    hheads.phantom⟩, hcalls ▸ hshown, hcalls ▸ hrows⟩

/-- The cursor that has moved is not behind a full line. -/
theorem updatecursor (h : Follows o x s p) (oldpos : VTermPos) {cancelPhantom : Bool}
    (hcancel : cancelPhantom = true → p.full = false) :
    Follows o x (s.updatecursor oldpos cancelPhantom) p := by
  unfold VTermState.updatecursor
  split
  · exact h
  · refine Follows.movecursor ?_ _ _ _
    obtain ⟨hheads, hshown, hrows⟩ := h
    refine ⟨⟨hheads.autowrap, hheads.insert, hheads.newline, hheads.region, hheads.cols,
      hheads.pos, ?_⟩, hshown, hrows⟩
    cases cancelPhantom with
    | false => exact hheads.phantom
    | true => exact (hcancel rfl).symm

/-- Setting the column and the phantom. -/
theorem setCol (h : Follows o x s p) {q : Sheet VTermScreenCell} (hplaced : q.Placed)
    (hline : q.line = p.line) (hink : q.ink = p.ink) (hwidth : q.width = p.width) :
    Follows o x
      { s with pos := { s.pos with col := q.col }, atPhantom := q.full } q := by
  obtain ⟨hwrap, hinsert, hnewline, hregion, hcols, hpos, -⟩ := h.heads
  refine h.along ⟨hwrap, hinsert, hnewline, hregion, hcols.trans hwidth.symm, ?_, rfl⟩ hplaced hline
    hink hwidth rfl rfl
  change (⟨s.pos.row, q.col⟩ : VTermPos) = ⟨q.line - q.top s.rows, q.col⟩
  have htop : q.top s.rows = p.top s.rows := by
    unfold Sheet.top
    rw [hline]
  rw [hpos, htop, hline]

theorem wrapPhantom (h : Follows o x s p) :
    Follows o x s.wrapPhantom p.wrap := by
  unfold VTermState.wrapPhantom Sheet.wrap
  rw [h.heads.phantom]
  split
  · have hfeed := h.linefeed
    exact hfeed.setCol (Sheet.placed_press hfeed.shown.placed .ret) rfl rfl rfl
  · exact h

theorem putglyph (h : Follows o x s p) {cp : ℕ} (hcp : Printable cp) :
    Follows o x (s.putglyph [cp] 1 s.pos) (p.write (typedCell o.blank cp)) := by
  obtain ⟨⟨hwrap, hinsert, hnewline, hregion, hcols, hpos, hphantom⟩, hshown, hrows⟩ := h
  have hput : run VTermScreen.exec x (s.putglyph [cp] 1 s.pos).calls =
      (run VTermScreen.exec x s.calls).putglyph [cp] 1
        ⟨p.line - p.top (run VTermScreen.exec x s.calls).rows, p.col⟩ := by
    rw [VTermState.putglyph, VTermState.call, run_append, hrows, ← hpos]
    rfl
  refine ⟨⟨hwrap, hinsert, hnewline, hregion, hcols, hpos, hphantom⟩, ?_, ?_⟩
  · rw [hput]
    exact hshown.write hcp
  · rw [hput]
    exact (Prod.mk.inj (VTermScreen.size_putglyph _ _ _ _)).1.trans hrows

theorem storeCombineChars_frame (s : VTermState) (i : ℕ) (chars : List ℕ) :
    ∃ buffer, s.storeCombineChars i chars = { s with combineChars := buffer } := by
  have hstore : ∀ (s : VTermState) (i c : ℕ),
      ∃ buffer, s.storeCombine i c = { s with combineChars := buffer } := by
    intro s i c
    unfold VTermState.storeCombine VTermState.growCombineBuffer
    split
    · exact ⟨_, rfl⟩
    · exact ⟨_, rfl⟩
  induction chars generalizing s i with
  | nil => exact hstore s i 0
  | cons c chars ih =>
    obtain ⟨first, hfirst⟩ := hstore s i c
    obtain ⟨buffer, hrest⟩ := ih (s.storeCombine i c) (i + 1)
    refine ⟨buffer, hrest.trans ?_⟩
    rw [hfirst]

/-- What is kept for combining characters has no part in the cursor. -/
theorem saveGlyph (h : Follows o x s p) (chars : List ℕ) (last : Bool) :
    Follows o x (s.saveGlyph chars last) p := by
  obtain ⟨⟨hwrap, hinsert, hnewline, hregion, hcols, hpos, hphantom⟩, hshown, hrows⟩ := h
  obtain ⟨buffer, hbuffer⟩ := storeCombineChars_frame s 0 chars
  unfold VTermState.saveGlyph
  rw [hbuffer]
  split
  · exact ⟨⟨hwrap, hinsert, hnewline, hregion, hcols, hpos, hphantom⟩, hshown, hrows⟩
  · exact ⟨⟨hwrap, hinsert, hnewline, hregion, hcols, hpos, hphantom⟩, hshown, hrows⟩

theorem advance (h : Follows o x s p) :
    Follows o x (s.advance 1) p.advance := by
  have hplaced := Sheet.placed_advance h.shown.placed
  obtain ⟨hwrap, hinsert, hnewline, hregion, hcols, hpos, hphantom⟩ := h.heads
  have hcol : s.pos.col = p.col := by rw [hpos]
  unfold VTermState.advance
  unfold Sheet.advance at hplaced ⊢
  by_cases hfull : p.width ≤ p.col + 1
  · rw [if_pos hfull] at hplaced
    rw [if_pos hfull, if_pos (by omega), if_pos hwrap]
    exact h.along ⟨hwrap, hinsert, hnewline, hregion, hcols, hpos, rfl⟩ hplaced rfl rfl rfl rfl rfl
  · rw [if_neg hfull] at hplaced
    rw [if_neg hfull, if_neg (by omega)]
    refine h.along ⟨hwrap, hinsert, hnewline, hregion, hcols, ?_, hphantom⟩ hplaced rfl rfl rfl rfl rfl
    change (⟨s.pos.row, s.pos.col + 1⟩ : VTermPos) = ⟨p.line - p.top s.rows, p.col + 1⟩
    rw [hpos]

theorem putGlyph (h : Follows o x s p) {cp : ℕ} (hcp : Printable cp) (last : Bool) :
    Follows o x (s.putGlyph [cp] last) (p.press (.char (typedCell o.blank cp))) := by
  have hwidth : VTermState.glyphWidth [cp] = 1 := by
    simp [VTermState.glyphWidth, hcp.2]
  have hroom : s.wrapPhantom.insertRoom = s.wrapPhantom := by
    unfold VTermState.insertRoom
    rw [if_neg (by rw [h.wrapPhantom.heads.insert]; decide)]
  unfold VTermState.putGlyph
  dsimp only
  rw [hwidth, hroom]
  exact ((h.wrapPhantom.putglyph hcp).saveGlyph [cp] last).advance

theorem glyphs_of_printable {cps : List ℕ} (hcps : ∀ cp ∈ cps, Printable cp) :
    VTermState.glyphs cps = cps.map fun cp => [cp] := by
  induction cps with
  | nil => rfl
  | cons cp rest ih =>
    have hrest := ih fun c hc => hcps c (List.mem_cons_of_mem cp hc)
    unfold VTermState.glyphs
    rw [hrest]
    cases rest with
    | nil => rfl
    | cons next more =>
      have hnext := (hcps next (by simp)).not_combining
      simp [hnext]

/-- A run of characters, none of which combines. -/
theorem putPoints (h : Follows o x s p) {cps : List ℕ} (hcps : ∀ cp ∈ cps, Printable cp) :
    Follows o x (s.putPoints cps)
      (run Sheet.press p (cps.map fun cp => .char (typedCell o.blank cp))) := by
  have hfirst : unicodeIsCombining (cps.headD 0) = false := by
    cases cps with
    | nil => decide
    | cons cp rest => exact (hcps cp List.mem_cons_self).not_combining
  have hsplit : s.combineSplit cps = (s, cps) := by
    unfold VTermState.combineSplit
    rw [if_neg (by rw [hfirst]; simp)]
  have hglyphs : s.putPoints cps =
      run VTermState.glyphStep s (VTermState.markLast (cps.map fun cp => [cp])) := by
    unfold VTermState.putPoints VTermState.putGlyphs
    rw [hsplit, glyphs_of_printable hcps]
  rw [hglyphs]
  clear hfirst hsplit hglyphs
  induction cps generalizing s p with
  | nil => exact h
  | cons cp rest ih =>
    exact ih (h.putGlyph (hcps cp List.mem_cons_self) _) fun c hc =>
      hcps c (List.mem_cons_of_mem cp hc)

/-- In the first column the line is not full. -/
theorem not_full (h : Follows o x s p) (hcol : p.col = 0) : p.full = false := by
  by_contra hfull
  have hlast := h.shown.placed.full (Bool.eq_true_of_not_eq_false hfull)
  have hwide := h.shown.wide
  have hwidth := h.shown.width
  omega

/-- A control that moves the cursor along its line. -/
theorem toCol (h : Follows o x s p) {q : Sheet VTermScreenCell} (hplaced : q.Placed)
    (hline : q.line = p.line) (hink : q.ink = p.ink) (hwidth : q.width = p.width)
    (hfull : q.full = false) (hstays : q.col = p.col → p.full = false) :
    Follows o x
      (VTermState.updatecursor { s with pos := { s.pos with col := q.col } } s.pos true) q := by
  have hset := h.setCol hplaced hline hink hwidth
  rw [hfull] at hset
  unfold VTermState.updatecursor
  split
  · rename_i hpos
    have hcol : q.col = p.col := by
      have hscol := congrArg VTermPos.col h.heads.pos
      exact (congrArg VTermPos.col hpos).trans hscol
    have hphantom : s.atPhantom = false := h.heads.phantom.trans (hstays hcol)
    rw [← hphantom] at hset
    exact hset
  · exact hset.movecursor _ _ _

end Follows

end Jterm.Vterm
