import Jterm.Page.Getline
import Jterm.Page.Resizing

/-!
The HTML of a page of fixed size. Cells and cursor are changed by three operations, each of
which redraws the lines it thinks affected: the line set, the two lines of a moved cursor, the
damaged lines whose text differs. No line is left with the HTML of older cells or of an older
cursor, so one mark stands in the page.
-/
namespace Jterm.Page

open Runs

/-- The body of the loop of textmatrix_setline. -/
def setlineChar (y : ℕ) (newline : JsString) (m : Textmatrix) (cx : ℕ) : Option Textmatrix := do
  let row ← m.displaydata[y]?
  let cell ← row[cx]?
  some { m with
    displaydata := m.displaydata.set y (row.set cx { cell with char := newline.getD cx 0 }) }

def textmatrixSetline (m : Textmatrix) (y : ℕ) (newline : JsString) : Option Textmatrix := do
  let m ← (List.range newline.length).foldlM (setlineChar y newline) m
  textmatrixRedrawLine m y

/-- The operations that change cells or cursor at a fixed size; a damage comes with what the
terminal says at that moment. -/
inductive MatrixOp
  | setline (y : ℕ) (newline : JsString)
  | drawCursor (x y : ℤ)
  | damage (startRow endRow : ℕ) (cursorX cursorY : ℤ) (reads : ℕ → RowRead)

def matrixOp (m : Textmatrix) : MatrixOp → Option Textmatrix
  | .setline y newline => textmatrixSetline m y newline
  | .drawCursor x y => textmatrixDrawCursor m x y
  | .damage startRow endRow cursorX cursorY reads =>
    damageCb cursorX cursorY reads m startRow endRow

/-- A cursor position in the matrix. -/
def CursorInside (cols rows : ℕ) (x y : ℤ) : Prop := 0 ≤ x ∧ x < cols ∧ 0 ≤ y ∧ y < rows

def MatrixOp.Inside (cols rows : ℕ) : MatrixOp → Prop
  | .setline y _ => y < rows
  | .drawCursor x y => CursorInside cols rows x y
  | .damage startRow endRow cursorX cursorY _ =>
    startRow ≤ endRow ∧ endRow ≤ rows ∧ CursorInside cols rows cursorX cursorY

/-- How often the cursor's mark is opened in a line. -/
def cursorMarks : JsString → ℕ
  | [] => 0
  | c :: s => (if (js "<u>").isPrefixOf (c :: s) then 1 else 0) + cursorMarks s

/-- A part of a line with `n` marks, whatever follows it. -/
def Marks (n : ℕ) (html : JsString) : Prop := ∀ s, cursorMarks (html ++ s) = n + cursorMarks s

theorem marks_nil : Marks 0 [] := by
  intro s
  simp

theorem Marks.append {n k : ℕ} {a b : JsString} (ha : Marks n a) (hb : Marks k b) :
    Marks (n + k) (a ++ b) := by
  intro s
  rw [List.append_assoc, ha, hb, Nat.add_assoc]

theorem Marks.count {n : ℕ} {html : JsString} (h : Marks n html) : cursorMarks html = n := by
  have hend := h []
  rwa [List.append_nil] at hend

/-- Without a `<` there is no mark. -/
theorem marks_text {html : JsString} (h : 0x3c ∉ html) : Marks 0 html := by
  induction html with
  | nil => exact marks_nil
  | cons c html ih =>
    obtain ⟨hc, hrest⟩ := not_or.mp (mt List.mem_cons.mpr h)
    intro s
    have hno : ¬ (js "<u>").isPrefixOf (c :: (html ++ s)) = true := by
      change ¬ ((0x3c == c) && _) = true
      simp [hc]
    rw [List.cons_append, cursorMarks, if_neg hno, Nat.zero_add]
    exact ih hrest s

/-- Another tag than the mark. -/
theorem marks_tag {d : UInt16} {html : JsString} (hd : d ≠ 0x75) (h : 0x3c ∉ d :: html) :
    Marks 0 (0x3c :: d :: html) := by
  intro s
  have hno : ¬ (js "<u>").isPrefixOf (0x3c :: d :: (html ++ s)) = true := by
    change ¬ ((0x3c == (0x3c : UInt16)) && ((0x75 == d) && _)) = true
    simp [Ne.symm hd]
  have hrest := marks_text h s
  rw [List.cons_append, List.cons_append, cursorMarks, if_neg hno, Nat.zero_add]
  exact hrest

theorem marks_charToHtml (c : UInt16) : Marks 0 (charToHtml c) := by
  apply marks_text
  unfold charToHtml
  split
  · decide
  · split
    · decide
    · rename_i hlt
      split
      · decide
      · simpa using Ne.symm hlt

theorem hexColour_no_open (n : ℕ) : (0x3c : UInt16) ∉ hexColour n := fun hmem =>
  absurd (hexDigit_of_mem (readHex_hexColour n) hmem) (by decide)

theorem marks_openTag (cell : Cell) : Marks 0 (openTag cell) := by
  have hstart : js "<p style=\"margin:0; padding:0; color: #" = 0x3c :: styleStart := by decide
  have hend : (0x3c : UInt16) ∉ js "; display: inline-block\">" := by decide
  have hmiddle : (0x3c : UInt16) ∉ js "; background-color: #" := by decide
  have hopen : Marks 0 (0x3c :: styleStart) := marks_tag (by decide) (by decide)
  unfold openTag
  rw [hstart]
  exact (((hopen.append (marks_text (hexColour_no_open _))).append (marks_text hmiddle)).append
    (marks_text (hexColour_no_open _))).append (marks_text hend)

theorem marks_closeTag : Marks 0 (js "</p>") := marks_tag (by decide) (by decide)

theorem marks_cursor (atCursor : Bool) {html : JsString} (h : Marks 0 html) :
    Marks atCursor.toNat
      ((if atCursor then js "<u>" else []) ++ html ++ if atCursor then js "</u>" else []) := by
  cases atCursor with
  | true =>
    have hopen : Marks 1 (js "<u>") := by
      have hrest : Marks 0 (js "u>") := marks_text (by decide)
      intro s
      rw [← Nat.zero_add (cursorMarks s), ← hrest s]
      rfl
    have hclose : Marks 0 (js "</u>") := marks_tag (by decide) (by decide)
    exact (hopen.append h).append hclose
  | false => simpa using h

theorem marks_cellHtml (atCursor : Bool) (previous cell : Cell) :
    Marks atCursor.toNat (cellHtml atCursor previous cell) := by
  apply marks_cursor
  split
  · exact (marks_closeTag.append (marks_openTag cell)).append (marks_charToHtml cell.char)
  · exact marks_charToHtml cell.char

/-- The cursor's column among the next `n + 1` is the first of them or among the rest. -/
theorem mark_column (cursorHere : Bool) (cursorX : ℤ) (cx n : ℕ) :
    (if cursorHere = true ∧ (cx : ℤ) ≤ cursorX ∧ cursorX < cx + (n + 1 : ℕ) then 1 else 0) =
      (cursorHere && decide ((cx : ℤ) = cursorX)).toNat +
        if cursorHere = true ∧ ((cx + 1 : ℕ) : ℤ) ≤ cursorX ∧ cursorX < (cx + 1 : ℕ) + n then 1
        else 0 := by
  cases cursorHere with
  | false => simp
  | true =>
    simp only [Bool.true_and, true_and]
    by_cases hx : (cx : ℤ) = cursorX
    · rw [if_pos (by omega), if_neg (by omega), decide_eq_true hx]
      rfl
    · rw [decide_eq_false hx, Bool.toNat_false, Nat.zero_add]
      exact if_congr (by omega) rfl rfl

/-- The loop of textmatrix_getline marks the cursor's column if it comes to it. -/
theorem marks_getlineLoop (cursorHere : Bool) (cursorX : ℤ) (cx : ℕ) (previous : Cell)
    (cells : List Cell) :
    Marks (if cursorHere = true ∧ (cx : ℤ) ≤ cursorX ∧ cursorX < cx + cells.length then 1 else 0)
      (getlineLoop cursorHere cursorX cx previous cells) := by
  induction cells generalizing cx previous with
  | nil =>
    rw [if_neg (by simp only [List.length_nil]; omega)]
    exact marks_nil
  | cons cell rest ih =>
    rw [List.length_cons, mark_column]
    exact (marks_cellHtml _ previous cell).append (ih (cx + 1) cell)

/-- A generated line has one mark if the cursor is on one of its cells, and otherwise none. -/
theorem textmatrixGetline_marks {m : Textmatrix} {y : ℤ} {row : List Cell} {html : JsString}
    (hrow : m.row y = some row) (h : textmatrixGetline m y = some html) :
    cursorMarks html =
      if y = m.cursorY ∧ 0 ≤ m.cursorX ∧ m.cursorX < row.length then 1 else 0 := by
  unfold textmatrixGetline at h
  rw [hrow, Option.bind_eq_bind, Option.bind_some] at h
  obtain ⟨first, hfirst, hline⟩ := Option.bind_eq_some_iff.mp h
  obtain ⟨rest, rfl⟩ := List.head?_eq_some_iff.mp hfirst
  cases hline
  have hall := ((marks_openTag first).append ((marks_cursor
    (decide (y = m.cursorY) && decide (0 = m.cursorX)) (marks_charToHtml first.char)).append
      (marks_getlineLoop (decide (y = m.cursorY)) m.cursorX 1 first rest))).append marks_closeTag
  have hcolumn := mark_column (decide (y = m.cursorY)) m.cursorX 0 rest.length
  simp only [List.tail_cons]
  simp only [List.append_assoc] at hall ⊢
  rw [hall.count, Nat.zero_add, Nat.add_zero]
  simp only [decide_eq_true_eq, Nat.zero_add, Int.natCast_zero, Int.zero_add] at hcolumn
  simp only [decide_eq_true_eq]
  rw [List.length_cons, hcolumn]

/-- The page at a fixed size, with the cursor in it. -/
structure FreshPage (cols rows : ℕ) (m : Textmatrix) : Prop where
  inv : PageInv m
  width : m.cols = cols
  height : m.rows = rows
  cursor : CursorInside cols rows m.cursorX m.cursorY

/-- The characters of one row are set; only what is drawn of that row can be out of date. -/
theorem setlineChar_changed {m m' next : Textmatrix} {y cx : ℕ} {newline : JsString}
    (h : RowChanged y m m') (hset : setlineChar y newline m' cx = some next) :
    RowChanged y m next := by
  obtain ⟨row, hrow, hcell⟩ := Option.bind_eq_some_iff.mp hset
  obtain ⟨cell, -, hnext⟩ := Option.bind_eq_some_iff.mp hcell
  cases hnext
  apply h.set
  rw [List.length_set, h.shaped.row row (List.mem_of_getElem? hrow), h.cols]

theorem FreshPage.setline {cols rows y : ℕ} {m m' : Textmatrix} {newline : JsString}
    (h : FreshPage cols rows m) (hy : y < rows) (hset : textmatrixSetline m y newline = some m') :
    FreshPage cols rows m' := by
  obtain ⟨changed, hchars, hredraw⟩ := Option.bind_eq_some_iff.mp hset
  have hchanged : RowChanged y m changed :=
    foldlM_keeps (fun _ _ _ _ h hset => setlineChar_changed h hset) (h.inv.rowChanged y) hchars
  obtain ⟨drawn, hdrawn, hinv, hrows, hcols, hx, hcursor⟩ :=
    h.inv.redrawChanged hchanged (by rw [h.height]; exact hy)
  cases hdrawn.symm.trans hredraw
  exact ⟨hinv, hcols.trans h.width, hrows.trans h.height, by rw [hx, hcursor]; exact h.cursor⟩

theorem FreshPage.drawCursor {cols rows : ℕ} {m m' : Textmatrix} {x y : ℤ}
    (h : FreshPage cols rows m) (hinside : CursorInside cols rows x y)
    (hdraw : textmatrixDrawCursor m x y = some m') : FreshPage cols rows m' := by
  have hnew : 0 ≤ y ∧ y < m.rows := by
    rw [h.height]
    exact hinside.2.2
  obtain ⟨drawn, hdrawn, hinv, hrows, hcols, hx, hcursor⟩ :=
    drawCursor_spec (x := x) h.inv.shaped h.inv.drawn h.inv.cursor hnew
  cases hdrawn.symm.trans hdraw
  exact ⟨hinv, hcols.trans h.width, hrows.trans h.height, by rw [hx, hcursor]; exact hinside⟩

theorem FreshPage.damage {cols rows startRow endRow : ℕ} {m m' : Textmatrix} {x y : ℤ}
    {reads : ℕ → RowRead} (h : FreshPage cols rows m) (hrange : startRow ≤ endRow)
    (hend : endRow ≤ rows) (hinside : CursorInside cols rows x y)
    (hdamage : damageCb x y reads m startRow endRow = some m') : FreshPage cols rows m' := by
  have hnew : 0 ≤ y ∧ y < m.rows := by
    rw [h.height]
    exact hinside.2.2
  obtain ⟨painted, hpainted, hinv, hrows, hcols, hx, hcursor⟩ :=
    damageCb_spec x reads h.inv.shaped h.inv.drawn h.inv.cursor hnew hrange
      (by rw [h.height]; exact hend)
  cases hpainted.symm.trans hdamage
  exact ⟨hinv, hcols.trans h.width, hrows.trans h.height, by rw [hx, hcursor]; exact hinside⟩

theorem FreshPage.matrixOp {cols rows : ℕ} {m m' : Textmatrix} {op : MatrixOp}
    (h : FreshPage cols rows m) (hop : op.Inside cols rows)
    (hcompleted : Page.matrixOp m op = some m') : FreshPage cols rows m' := by
  cases op with
  | setline y newline => exact h.setline hop hcompleted
  | drawCursor x y => exact h.drawCursor hop hcompleted
  | damage startRow endRow cursorX cursorY reads =>
    exact h.damage hop.1 hop.2.1 hop.2.2 hcompleted

/-- The page that textmatrix_add_tx makes of an empty matrix. -/
def addedPage (cols rows : ℕ) (cursorX cursorY : ℤ) : Option Textmatrix :=
  textmatrixAddTx ⟨[], cursorX, cursorY, rows, cols, []⟩ cols rows

theorem freshPage_addedPage {cols rows : ℕ} {cursorX cursorY : ℤ}
    (hinside : CursorInside cols rows cursorX cursorY) :
    ∃ m, addedPage cols rows cursorX cursorY = some m ∧ FreshPage cols rows m := by
  obtain ⟨hx, hxlt, hy⟩ := hinside
  obtain ⟨m, hm, hshaped, hdrawn, hcols, hrows, hmx, hmy⟩ :=
    addTx_spec ⟨[], cursorX, cursorY, rows, cols, []⟩ cols rows (by omega) rfl rfl rfl
  have hrows' : m.rows = rows := hrows
  have hmx' : m.cursorX = cursorX := hmx
  have hmy' : m.cursorY = cursorY := hmy
  refine ⟨m, hm, ⟨?_, ?_, ?_⟩, hcols, hrows', ?_⟩
  · rw [hrows']
    exact hshaped
  · rw [hrows']
    exact hdrawn
  · rw [hrows', hmy']
    exact hy
  · rw [hmx', hmy']
    exact ⟨hx, hxlt, hy⟩

/-- Every line's HTML is generated from the current cells and the current cursor, and the one
mark of the page is in the cursor's line. -/
structure NeverStale (rows : ℕ) (m : Textmatrix) : Prop where
  lines : m.html.length = rows
  fresh : ∀ y < rows, ∃ html, m.html[y]? = some html ∧ textmatrixGetline m y = some html
  oneMark : ∃ y < rows, (y : ℤ) = m.cursorY ∧
    ∀ z html, m.html[z]? = some html → cursorMarks html = if z = y then 1 else 0

theorem FreshPage.neverStale {cols rows : ℕ} {m : Textmatrix} (h : FreshPage cols rows m) :
    NeverStale rows m := by
  obtain ⟨hx, hxlt, hy, hylt⟩ := h.cursor
  have hshaped : Shaped m rows := h.height ▸ h.inv.shaped
  have hdrawn : ∀ z < rows, m.html[z]? = textmatrixGetline m z := h.height ▸ h.inv.drawn
  refine ⟨hshaped.html, ?_, ?_⟩
  · intro y hylines
    obtain ⟨html, hhtml⟩ := hshaped.getline hylines
    exact ⟨html, (hdrawn y hylines).trans hhtml, hhtml⟩
  · obtain ⟨y, hcursor⟩ := Int.eq_ofNat_of_zero_le hy
    refine ⟨y, by omega, hcursor.symm, ?_⟩
    intro z html hhtml
    have hz : z < rows := by
      rw [← hshaped.html]
      exact (List.getElem?_eq_some_iff.mp hhtml).1
    obtain ⟨row, -, hrow, hlength⟩ := hshaped.row_eq hz
    rw [textmatrixGetline_marks hrow ((hdrawn z hz).symm.trans hhtml), hlength, h.width, hcursor]
    exact if_congr (by omega) rfl rfl

/-- After any completed operations at a fixed size, in any order, no line's HTML is stale. -/
theorem neverStale_run {cols rows : ℕ} {cursorX cursorY : ℤ} {ops : List MatrixOp}
    {m₀ m : Textmatrix} (hinside : CursorInside cols rows cursorX cursorY)
    (hops : ∀ op ∈ ops, op.Inside cols rows) (hadded : addedPage cols rows cursorX cursorY = some m₀)
    (hrun : ops.foldlM matrixOp m₀ = some m) : NeverStale rows m := by
  obtain ⟨added, hadded', hfresh⟩ := freshPage_addedPage hinside
  cases hadded'.symm.trans hadded
  exact (foldlM_keeps (fun _ op hop _ h hdone => h.matrixOp (hops op hop) hdone) hfresh
    hrun).neverStale

/-- Two lines: one is set, the cursor moves to the other, and the first is damaged. -/
def setMovedDamaged : List MatrixOp :=
  [.setline 0 (js "<&"), .drawCursor 1 1,
    .damage 0 2 0 1 fun _ => ⟨js "b>", ⟨[0x62, 0x3e], [0, 0], [0xffffff, 0xffffff], [0, 1]⟩⟩]

theorem neverStale_run_setMovedDamaged : ∃ m₀ m, addedPage 2 2 0 0 = some m₀ ∧
    setMovedDamaged.foldlM matrixOp m₀ = some m ∧ NeverStale 2 m := by
  have hadded : (addedPage 2 2 0 0).isSome = true := by decide +kernel
  have hrun : ((addedPage 2 2 0 0).bind fun m => setMovedDamaged.foldlM matrixOp m).isSome = true := by
    decide +kernel
  obtain ⟨m₀, hm₀⟩ := Option.isSome_iff_exists.mp hadded
  rw [hm₀, Option.bind_some] at hrun
  obtain ⟨m, hm⟩ := Option.isSome_iff_exists.mp hrun
  refine ⟨m₀, m, hm₀, hm, neverStale_run ?_ ?_ hm₀ hm⟩
  · unfold CursorInside
    decide
  · simp [setMovedDamaged, MatrixOp.Inside, CursorInside]

end Jterm.Page
