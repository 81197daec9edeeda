import Jterm.Lib.Runs
import Jterm.Page.Repaint

/-!
Resizing the page. The matrix is rebuilt at the new size while the cursor of the old one is
remembered; the repaint that follows redraws the row the cursor leaves.
-/
namespace Jterm.Page

open Runs

/-- A cell that textmatrix_add_tx pushes; it sets `rev`, which nothing reads, not `reverse`. -/
def newCell : Cell := ⟨0x41, 65535, 0, none⟩

/-- The body of the loop of textmatrix_add_tx. -/
def addRow (x : ℕ) (m : Textmatrix) (cy : ℕ) : Option Textmatrix :=
  textmatrixRedrawLine { m with
    displaydata := m.displaydata ++ [List.replicate x newCell]
    html := m.html ++ [[]] } cy

def textmatrixAddTx (m : Textmatrix) (x y : ℕ) : Option Textmatrix := (List.range y).foldlM (addRow x) m

/-- The elements of the old lines are removed with their HTML. -/
def textmatrixResizeTx (m : Textmatrix) (x y : ℕ) : Option Textmatrix :=
  textmatrixAddTx { m with displaydata := [], html := [] } x y

/-- textmatrix_setsize_px and the resize, in characters. -/
def textmatrixResizePx (m : Textmatrix) (x y : ℕ) : Option Textmatrix :=
  textmatrixResizeTx { m with cols := x, rows := y } x y

/-- The page before do_connect, and after its textmatrix_add_px. -/
def loadedPage : Textmatrix := ⟨[], 0, 0, 25, 80, []⟩
def startPage (x y : ℕ) : Option Textmatrix := textmatrixAddTx { loadedPage with cols := x, rows := y } x y

/-- What webvterm_damage_cb reads of a row: the text as a string and the four arrays. -/
structure RowRead where
  bufferStr : JsString
  buffers : RowBuffers
  deriving DecidableEq, Repr

def repaintRead (reads : ℕ → RowRead) (m : Textmatrix) (cy : ℕ) : Option Textmatrix := do
  let currentLine ← textmatrixGetlineTxt m cy
  if (reads cy).bufferStr ≠ currentLine then
    let m ← (List.range m.cols).foldlM (copyRow (reads cy).buffers cy) m
    textmatrixRedrawLine m cy
  else some m

/-- webvterm_damage_cb for a terminal whose cursor and rows are read as given. -/
def damageCb (cursorX cursorY : ℤ) (reads : ℕ → RowRead) (m : Textmatrix) (startRow endRow : ℕ) :
    Option Textmatrix := do
  let m ← textmatrixDrawCursor m cursorX cursorY
  (List.range' startRow (endRow - startRow)).foldlM (repaintRead reads) m

theorem webvtermDamageCb_eq (t : Terminal) (m : Textmatrix) (startRow endRow : ℕ) :
    webvtermDamageCb t m startRow endRow =
      damageCb t.cursorX t.cursorY (fun cy =>
        ⟨pointerStringify ((webvtermGetRow t cy).text ++ [0]), webvtermGetRow t cy⟩) m
        startRow endRow := rfl

/-- doresize; the terminal's cursor and rows are those after webvterm_resize. -/
def doresize (cursorX cursorY : ℤ) (reads : ℕ → RowRead) (m : Textmatrix) (x y : ℕ) :
    Option Textmatrix := do
  let m ← textmatrixResizePx m x y
  damageCb cursorX cursorY reads m 0 y

/-- What happens to the page, with what the terminal says at that moment. -/
inductive PageEvent
  | resize (x y : ℕ) (cursorX cursorY : ℤ) (reads : ℕ → RowRead)
  | damage (startRow endRow : ℕ) (cursorX cursorY : ℤ) (reads : ℕ → RowRead)

def pageEvent (m : Textmatrix) : PageEvent → Option Textmatrix
  | .resize x y cursorX cursorY reads => doresize cursorX cursorY reads m x y
  | .damage startRow endRow cursorX cursorY reads =>
    damageCb cursorX cursorY reads m startRow endRow

/-- An access outside the matrix throws, and what was under way is abandoned. -/
def pageStep (m : Option Textmatrix) (e : PageEvent) : Option Textmatrix := m.bind (pageEvent · e)

/-- The size is one row and one column at least, the damage and the cursor are inside it. -/
def PageEvent.InSize (m : Textmatrix) : PageEvent → Prop
  | .resize x y cursorX cursorY _ =>
    1 ≤ x ∧ 1 ≤ y ∧ 0 ≤ cursorX ∧ cursorX < x ∧ 0 ≤ cursorY ∧ cursorY < y
  | .damage startRow endRow cursorX cursorY _ =>
    startRow ≤ endRow ∧ endRow ≤ m.rows ∧ 0 ≤ cursorX ∧ cursorX < m.cols ∧ 0 ≤ cursorY ∧
      cursorY < m.rows

/-- The new size still has the row of the remembered cursor. -/
def PageEvent.KeepsCursorRow (m : Textmatrix) : PageEvent → Prop
  | .resize _ y _ _ _ => m.cursorY < y
  | .damage _ _ _ _ _ => True

/-- A matrix of `rows` rows and an element for each. -/
structure Shaped (m : Textmatrix) (rows : ℕ) : Prop where
  displaydata : m.displaydata.length = rows
  html : m.html.length = rows
  row : ∀ row ∈ m.displaydata, row.length = m.cols
  cols : 0 < m.cols

/-- The HTML of the line is generated from its cells. -/
def Drawn (m : Textmatrix) (y : ℕ) : Prop := m.html[y]? = textmatrixGetline m y

/-- A line's HTML depends on its cells and, on the cursor's row, on the cursor. -/
theorem textmatrixGetline_congr {m m' : Textmatrix} {y : ℤ} (hrow : m'.row y = m.row y)
    (hcursor : m'.cursorX = m.cursorX ∧ m'.cursorY = m.cursorY ∨ y ≠ m.cursorY ∧ y ≠ m'.cursorY) :
    textmatrixGetline m' y = textmatrixGetline m y := by
  have hloop : ∀ (cx : ℕ) (previous : Cell) (cells : List Cell),
      getlineLoop false m'.cursorX cx previous cells = getlineLoop false m.cursorX cx previous cells := by
    intro cx previous cells
    induction cells generalizing cx previous with
    | nil => rfl
    | cons cell rest ih => simp only [getlineLoop, Bool.false_and, ih]
  unfold textmatrixGetline
  rcases hcursor with ⟨hx, hy⟩ | ⟨hold, hnew⟩
  · rw [hrow, hx, hy]
  · rw [hrow, decide_eq_false hold, decide_eq_false hnew]
    simp only [Bool.false_and, hloop]

variable {m m' : Textmatrix} {rows y z : ℕ}

theorem Shaped.row_eq (h : Shaped m rows) (hy : y < rows) :
    ∃ row, m.displaydata[y]? = some row ∧ m.row y = some row ∧ row.length = m.cols := by
  have hlt : y < m.displaydata.length := by
    rw [h.displaydata]
    exact hy
  have hrow : m.displaydata[y]? = some m.displaydata[y] := List.getElem?_eq_getElem hlt
  refine ⟨_, hrow, ?_, h.row _ (List.getElem_mem hlt)⟩
  unfold Textmatrix.row
  rw [if_pos (Int.natCast_nonneg y), Int.toNat_natCast, hrow]

theorem Shaped.getline (h : Shaped m rows) (hy : y < rows) :
    ∃ newline, textmatrixGetline m y = some newline := by
  obtain ⟨row, -, hrow, hlength⟩ := h.row_eq hy
  have hcols := h.cols
  have hne : row ≠ [] := List.ne_nil_of_length_pos (by omega)
  obtain ⟨first, rest, rfl⟩ := List.exists_cons_of_ne_nil hne
  unfold textmatrixGetline
  rw [hrow]
  exact ⟨_, rfl⟩

/-- Redrawing a line of the matrix draws it and touches no other. -/
theorem Shaped.redrawLine (h : Shaped m rows) (hy : y < rows) :
    ∃ m', textmatrixRedrawLine m y = some m' ∧ Shaped m' rows ∧ Drawn m' y ∧
      (∀ z, Drawn m z → Drawn m' z) ∧ m'.displaydata = m.displaydata ∧ m'.cols = m.cols ∧
      m'.rows = m.rows ∧ m'.cursorX = m.cursorX ∧ m'.cursorY = m.cursorY := by
  obtain ⟨newline, hline⟩ := h.getline hy
  have hlt : y < m.html.length := by
    rw [h.html]
    exact hy
  refine ⟨{ m with html := m.html.set y newline }, ?_, ?_, ?_, ?_, rfl, rfl, rfl, rfl, rfl⟩
  · unfold textmatrixRedrawLine
    rw [hline, Option.bind_eq_bind, Option.bind_some, Int.toNat_natCast, if_pos hlt]
  · exact ⟨h.displaydata, (List.length_set ..).trans h.html, h.row, h.cols⟩
  · exact (List.getElem?_set_self hlt).trans hline.symm
  · intro z hz
    by_cases hzy : z = y
    · subst hzy
      exact (List.getElem?_set_self hlt).trans hline.symm
    · exact (List.getElem?_set_ne (Ne.symm hzy)).trans hz

/-- After textmatrix_add_tx has added `n` rows, each is drawn. -/
theorem addTx_spec (m : Textmatrix) (x n : ℕ) (hx : 1 ≤ x) (hcols : m.cols = x)
    (hdata : m.displaydata = []) (hhtml : m.html = []) :
    ∃ m', textmatrixAddTx m x n = some m' ∧ Shaped m' n ∧ (∀ y < n, Drawn m' y) ∧
      m'.cols = x ∧ m'.rows = m.rows ∧ m'.cursorX = m.cursorX ∧ m'.cursorY = m.cursorY := by
  unfold textmatrixAddTx
  induction n with
  | zero =>
    refine ⟨m, rfl, ⟨by rw [hdata]; rfl, by rw [hhtml]; rfl, ?_, by omega⟩, ?_, hcols, rfl, rfl, rfl⟩
    · rw [hdata]
      simp
    · intro y hy
      omega
  | succ n ih =>
    obtain ⟨last, hlast, hshaped, hdrawn, hlcols, hlrows, hlx, hly⟩ := ih
    have hpushed : Shaped { last with
        displaydata := last.displaydata ++ [List.replicate x newCell]
        html := last.html ++ [[]] } (n + 1) := by
      refine ⟨by simp [hshaped.displaydata], by simp [hshaped.html], ?_, hshaped.cols⟩
      intro row hrow
      rcases List.mem_append.mp hrow with hold | hnew
      · exact hshaped.row row hold
      · rw [List.mem_singleton.mp hnew, List.length_replicate]
        exact hlcols.symm
    obtain ⟨m', hm', hshaped', hdrawn', hkeeps, hdata', hcols', hrows', hx', hy'⟩ :=
      hpushed.redrawLine (Nat.lt_succ_self n)
    refine ⟨m', ?_, hshaped', ?_, hcols'.trans hlcols, hrows'.trans hlrows, hx'.trans hlx,
      hy'.trans hly⟩
    · rw [List.range_succ, List.foldlM_append, hlast]
      simp only [Option.bind_eq_bind, Option.bind_some, List.foldlM_cons, List.foldlM_nil, addRow]
      rw [hm']
      rfl
    · intro y hy
      by_cases hyn : y = n
      · rw [hyn]
        exact hdrawn'
      · have hold := hdrawn y (by omega)
        apply hkeeps
        have hyd : y < last.displaydata.length := by
          rw [hshaped.displaydata]
          omega
        have hyh : y < last.html.length := by
          rw [hshaped.html]
          omega
        have hrow : Textmatrix.row { last with
            displaydata := last.displaydata ++ [List.replicate x newCell]
            html := last.html ++ [[]] } y = last.row y := by
          unfold Textmatrix.row
          rw [if_pos (Int.natCast_nonneg y), if_pos (Int.natCast_nonneg y), Int.toNat_natCast]
          exact List.getElem?_append_left hyd
        have hline := textmatrixGetline_congr hrow (Or.inl ⟨rfl, rfl⟩)
        unfold Drawn at hold ⊢
        rw [hline, ← hold]
        exact List.getElem?_append_left hyh

/-- The page between two events: every line is drawn and the cursor's row exists. -/
structure PageInv (m : Textmatrix) : Prop where
  shaped : Shaped m m.rows
  drawn : ∀ y < m.rows, Drawn m y
  cursor : 0 ≤ m.cursorY ∧ m.cursorY < m.rows

/-- Moving the cursor redraws the row it leaves, which must still exist, and the row it enters. -/
theorem drawCursor_spec {x y : ℤ} (hshaped : Shaped m m.rows) (hdrawn : ∀ z < m.rows, Drawn m z)
    (hold : 0 ≤ m.cursorY ∧ m.cursorY < m.rows) (hnew : 0 ≤ y ∧ y < m.rows) :
    ∃ m', textmatrixDrawCursor m x y = some m' ∧ PageInv m' ∧ m'.rows = m.rows ∧
      m'.cols = m.cols ∧ m'.cursorX = x ∧ m'.cursorY = y := by
  obtain ⟨old, hcursor⟩ := Int.eq_ofNat_of_zero_le hold.1
  obtain ⟨new, rfl⟩ := Int.eq_ofNat_of_zero_le hnew.1
  have hmoved : Shaped { m with cursorX := x, cursorY := (new : ℤ) } m.rows :=
    ⟨hshaped.displaydata, hshaped.html, hshaped.row, hshaped.cols⟩
  unfold textmatrixDrawCursor
  dsimp only
  -- after the first redraw only the new cursor's row may be out of date
  have hfirst : ∃ next, (if (if x ≠ m.cursorX ∨ (new : ℤ) ≠ m.cursorY then m.cursorY else -1) ≠ -1
        then textmatrixRedrawLine { m with cursorX := x, cursorY := (new : ℤ) }
          (if x ≠ m.cursorX ∨ (new : ℤ) ≠ m.cursorY then m.cursorY else -1)
        else some { m with cursorX := x, cursorY := (new : ℤ) }) = some next ∧
      Shaped next m.rows ∧ (∀ z < m.rows, z ≠ new → Drawn next z) ∧ next.cols = m.cols ∧
        next.rows = m.rows ∧ next.cursorX = x ∧ next.cursorY = new := by
    by_cases hchanged : x ≠ m.cursorX ∨ (new : ℤ) ≠ m.cursorY
    · rw [if_pos hchanged, if_pos (by omega), hcursor]
      obtain ⟨next, hnext, hshaped', hdrawn', hkeeps, -, hcols, hrows, hx, hy⟩ :=
        hmoved.redrawLine (show old < m.rows by omega)
      refine ⟨next, hnext, hshaped', ?_, hcols, hrows, hx, hy⟩
      intro z hz hznew
      by_cases hzold : z = old
      · rw [hzold]
        exact hdrawn'
      · apply hkeeps
        have hrow : Textmatrix.row { m with cursorX := x, cursorY := (new : ℤ) } z = m.row z := rfl
        have hline := textmatrixGetline_congr hrow (Or.inr ⟨by omega, by dsimp only; omega⟩)
        exact (hdrawn z hz).trans hline.symm
    · rw [if_neg hchanged, if_neg (by simp)]
      obtain ⟨hx, hy⟩ := not_or.mp hchanged
      refine ⟨_, rfl, hmoved, ?_, rfl, rfl, rfl, rfl⟩
      intro z hz _
      have hrow : Textmatrix.row { m with cursorX := x, cursorY := (new : ℤ) } z = m.row z := rfl
      have hline := textmatrixGetline_congr hrow (Or.inl ⟨not_not.mp hx, not_not.mp hy⟩)
      exact (hdrawn z hz).trans hline.symm
  obtain ⟨next, hnext, hshaped', hdrawn', hcols, hrows, hx, hy⟩ := hfirst
  obtain ⟨m', hm', hshaped'', hlast, hkeeps, -, hcols', hrows', hx', hy'⟩ :=
    hshaped'.redrawLine (show new < m.rows by omega)
  rw [hnext, Option.bind_some]
  refine ⟨m', hm', ⟨?_, ?_, ?_⟩, hrows'.trans hrows, hcols'.trans hcols, hx'.trans hx, hy'.trans hy⟩
  · rw [hrows', hrows]
    exact hshaped''
  · intro z hz
    rw [hrows', hrows] at hz
    by_cases hznew : z = new
    · rw [hznew]
      exact hlast
    · exact hkeeps z (hdrawn' z hz hznew)
  · rw [hy', hy, hrows', hrows]
    exact hnew

/-- The cells of row `y` may have changed since the page was in order, nothing else. -/
structure RowChanged (y : ℕ) (m m' : Textmatrix) : Prop where
  shaped : Shaped m' m.rows
  html : m'.html = m.html
  other : ∀ z, z ≠ y → m'.displaydata[z]? = m.displaydata[z]?
  rows : m'.rows = m.rows
  cols : m'.cols = m.cols
  cursorX : m'.cursorX = m.cursorX
  cursorY : m'.cursorY = m.cursorY

/-- Putting a row of the same length in the place of row `y`. -/
theorem RowChanged.set {m' : Textmatrix} (h : RowChanged y m m') {row : List Cell}
    (hrow : row.length = m.cols) :
    RowChanged y m { m' with displaydata := m'.displaydata.set y row } where
  shaped := by
    refine ⟨(List.length_set ..).trans h.shaped.displaydata, h.shaped.html, ?_, h.shaped.cols⟩
    intro other hmem
    rcases List.mem_or_eq_of_mem_set hmem with hold | hnew
    · exact h.shaped.row other hold
    · rw [hnew, hrow]
      exact h.cols.symm
  html := h.html
  other z hz := (List.getElem?_set_ne (Ne.symm hz)).trans (h.other z hz)
  rows := h.rows
  cols := h.cols
  cursorX := h.cursorX
  cursorY := h.cursorY

theorem PageInv.rowChanged (h : PageInv m) (y : ℕ) : RowChanged y m m :=
  ⟨h.shaped, rfl, fun _ _ => rfl, rfl, rfl, rfl, rfl⟩

/-- Redrawing the changed row puts the page in order again. -/
theorem PageInv.redrawChanged (h : PageInv m) (hchanged : RowChanged y m m') (hy : y < m.rows) :
    ∃ drawn, textmatrixRedrawLine m' y = some drawn ∧ PageInv drawn ∧ drawn.rows = m.rows ∧
      drawn.cols = m.cols ∧ drawn.cursorX = m.cursorX ∧ drawn.cursorY = m.cursorY := by
  obtain ⟨drawn, hdrawn, hshaped, hline, hkeeps, -, hcols, hrows, hx, hcursor⟩ :=
    hchanged.shaped.redrawLine hy
  have hrows' := hrows.trans hchanged.rows
  have hcursor' := hcursor.trans hchanged.cursorY
  refine ⟨drawn, hdrawn, ⟨by rw [hrows']; exact hshaped, ?_, by rw [hcursor', hrows']; exact h.cursor⟩,
    hrows', hcols.trans hchanged.cols, hx.trans hchanged.cursorX, hcursor'⟩
  intro z hz
  rw [hrows'] at hz
  by_cases hzy : z = y
  · rw [hzy]
    exact hline
  · apply hkeeps
    have hother : m'.row z = m.row z := by
      unfold Textmatrix.row
      rw [if_pos (Int.natCast_nonneg z), if_pos (Int.natCast_nonneg z), Int.toNat_natCast]
      exact hchanged.other z hzy
    have hsame := textmatrixGetline_congr hother (Or.inl ⟨hchanged.cursorX, hchanged.cursorY⟩)
    unfold Drawn
    rw [hchanged.html, hsame]
    exact h.drawn z hz

/-- Copying a row of the terminal into the matrix and drawing it. -/
theorem repaintRead_spec (reads : ℕ → RowRead) (h : PageInv m) (hy : y < m.rows) :
    ∃ m', repaintRead reads m y = some m' ∧ PageInv m' ∧ m'.rows = m.rows ∧ m'.cols = m.cols ∧
      m'.cursorX = m.cursorX ∧ m'.cursorY = m.cursorY := by
  obtain ⟨row, hget, hrow, hlength⟩ := h.shaped.row_eq hy
  have hline : textmatrixGetlineTxt m y = some (row.map Cell.char) := by
    unfold textmatrixGetlineTxt
    rw [hrow]
    rfl
  unfold repaintRead
  rw [hline, Option.bind_eq_bind, Option.bind_some]
  split
  · rw [copyRow_fold (reads y).buffers y m row hget m.cols (by omega), Option.bind_eq_bind,
      Option.bind_some, List.drop_eq_nil_of_le (by omega), List.append_nil]
    exact h.redrawChanged ((h.rowChanged y).set (by simp)) hy
  · exact ⟨m, rfl, h, rfl, rfl, rfl, rfl⟩

/-- The rows of a damage are in the matrix, so each of them is repainted. -/
theorem repaintReads_spec (reads : ℕ → RowRead) (h : PageInv m) {startRow endRow : ℕ}
    (hrange : startRow ≤ endRow) (hend : endRow ≤ m.rows) :
    ∃ m', (List.range' startRow (endRow - startRow)).foldlM (repaintRead reads) m = some m' ∧
      PageInv m' ∧ m'.rows = m.rows ∧ m'.cols = m.cols ∧ m'.cursorX = m.cursorX ∧
      m'.cursorY = m.cursorY := by
  have hstep : ∀ s : Textmatrix, ∀ y ∈ List.range' startRow (endRow - startRow),
      PageInv s ∧ s.rows = m.rows ∧ s.cols = m.cols ∧ s.cursorX = m.cursorX ∧
          s.cursorY = m.cursorY →
        ∃ t, repaintRead reads s y = some t ∧ PageInv t ∧ t.rows = m.rows ∧ t.cols = m.cols ∧
          t.cursorX = m.cursorX ∧ t.cursorY = m.cursorY := by
    rintro s y hy ⟨hs, hrows, hcols, hx, hcursor⟩
    rw [List.mem_range'_1] at hy
    obtain ⟨t, ht, htinv, htrows, htcols, htx, hty⟩ := repaintRead_spec reads hs (y := y) (by omega)
    exact ⟨t, ht, htinv, htrows.trans hrows, htcols.trans hcols, htx.trans hx, hty.trans hcursor⟩
  exact foldlM_some hstep ⟨h, rfl, rfl, rfl, rfl⟩

theorem damageCb_spec (cursorX : ℤ) {cursorY : ℤ} (reads : ℕ → RowRead) {startRow endRow : ℕ}
    (hshaped : Shaped m m.rows) (hdrawn : ∀ z < m.rows, Drawn m z)
    (hold : 0 ≤ m.cursorY ∧ m.cursorY < m.rows) (hnew : 0 ≤ cursorY ∧ cursorY < m.rows)
    (hrange : startRow ≤ endRow) (hend : endRow ≤ m.rows) :
    ∃ m', damageCb cursorX cursorY reads m startRow endRow = some m' ∧ PageInv m' ∧
      m'.rows = m.rows ∧ m'.cols = m.cols ∧ m'.cursorX = cursorX ∧ m'.cursorY = cursorY := by
  obtain ⟨moved, hmoved, hinv, hrows, hcols, hx, hy⟩ :=
    drawCursor_spec (x := cursorX) hshaped hdrawn hold hnew
  obtain ⟨m', hm', hinv', hrows', hcols', hx', hy'⟩ :=
    repaintReads_spec reads hinv hrange (by rw [hrows]; exact hend)
  refine ⟨m', ?_, hinv', hrows'.trans hrows, hcols'.trans hcols, hx'.trans hx, hy'.trans hy⟩
  unfold damageCb
  rw [hmoved, Option.bind_eq_bind, Option.bind_some]
  exact hm'

theorem doresize_spec (cursorX : ℤ) {cursorY : ℤ} (reads : ℕ → RowRead) {x y : ℕ} (h : PageInv m)
    (hx : 1 ≤ x) (hcursor : 0 ≤ cursorY ∧ cursorY < y) (hold : m.cursorY < y) :
    ∃ m', doresize cursorX cursorY reads m x y = some m' ∧ PageInv m' ∧ m'.rows = y := by
  obtain ⟨resized, hresized, hshaped, hdrawn, hcols, hrows, -, hy⟩ :=
    addTx_spec { m with cols := x, rows := y, displaydata := [], html := [] } x y hx rfl rfl rfl
  have hresized' : textmatrixResizePx m x y = some resized := hresized
  have hrows' : resized.rows = y := hrows
  have hcursorY : resized.cursorY = m.cursorY := hy
  rw [← hrows'] at hshaped hdrawn hcursor hold
  have hremembered : 0 ≤ resized.cursorY ∧ resized.cursorY < resized.rows := by
    rw [hcursorY]
    exact ⟨h.cursor.1, hold⟩
  obtain ⟨m', hm', hinv, hmrows, -⟩ := damageCb_spec cursorX reads hshaped hdrawn hremembered
    hcursor (Nat.zero_le y) (Nat.le_of_eq hrows'.symm)
  refine ⟨m', ?_, hinv, hmrows.trans hrows'⟩
  unfold doresize
  rw [hresized', Option.bind_eq_bind, Option.bind_some]
  exact hm'

theorem pageEvent_spec {e : PageEvent} (h : PageInv m) (hsize : e.InSize m)
    (hkeeps : e.KeepsCursorRow m) : ∃ m', pageEvent m e = some m' ∧ PageInv m' := by
  cases e with
  | resize x y cursorX cursorY reads =>
    obtain ⟨hx, -, -, -, hcursor⟩ := hsize
    obtain ⟨m', hm', hinv, -⟩ := doresize_spec cursorX reads h hx hcursor hkeeps
    exact ⟨m', hm', hinv⟩
  | damage startRow endRow cursorX cursorY reads =>
    obtain ⟨hrange, hend, -, -, hcursor⟩ := hsize
    obtain ⟨m', hm', hinv, -⟩ := damageCb_spec cursorX reads h.shaped h.drawn h.cursor
      hcursor hrange hend
    exact ⟨m', hm', hinv⟩

theorem pageInv_startPage {x y : ℕ} (hx : 1 ≤ x) (hy : 1 ≤ y) :
    ∃ m, startPage x y = some m ∧ PageInv m := by
  obtain ⟨m, hm, hshaped, hdrawn, -, hrows, -, hcursor⟩ :=
    addTx_spec { loadedPage with cols := x, rows := y } x y hx rfl rfl rfl
  have hrows' : m.rows = y := hrows
  have hcursor' : m.cursorY = 0 := hcursor
  refine ⟨m, hm, ?_, ?_, ?_⟩
  · rw [hrows']
    exact hshaped
  · rw [hrows']
    exact hdrawn
  · rw [hrows', hcursor']
    omega

/-- A step inside the size that keeps the cursor's row, as long as nothing has been thrown. -/
def StepKeepsRow (m : Option Textmatrix) (e : PageEvent) : Prop :=
  ∀ page, m = some page → e.InSize page ∧ e.KeepsCursorRow page

/-- In a run whose resizes keep the row of the remembered cursor nothing is thrown, and after each
event every line's HTML is generated from its cells. -/
theorem page_survives {x y : ℕ} (hx : 1 ≤ x) (hy : 1 ≤ y) {es pre : List PageEvent}
    (hall : AllSteps pageStep StepKeepsRow (startPage x y) es) (hpre : pre <+: es) :
    ∃ m, run pageStep (startPage x y) pre = some m ∧ m.displaydata.length = m.rows ∧
      (∀ row ∈ m.displaydata, row.length = m.cols) ∧ ∀ z < m.rows, Drawn m z := by
  have hstep : ∀ m e, (∃ page, m = some page ∧ PageInv page) → StepKeepsRow m e →
      ∃ page, pageStep m e = some page ∧ PageInv page := by
    rintro m e ⟨page, rfl, hinv⟩ hok
    obtain ⟨hin, hkeep⟩ := hok page rfl
    exact pageEvent_spec hinv hin hkeep
  obtain ⟨m, hm, hinv⟩ := invariant_along pageStep hstep (pageInv_startPage hx hy) hall hpre
  exact ⟨m, hm, hinv.shaped.displaydata, hinv.shaped.row, hinv.drawn⟩

/-- Rows of which the terminal says nothing. -/
def noRead (_ : ℕ) : RowRead := ⟨[], ⟨[], [], [], []⟩⟩

/-- From two rows to three and back, with the cursor in the second row all the time. -/
theorem page_survives_grown :
    ∃ m, run pageStep (startPage 1 2) [.resize 1 3 0 1 noRead, .resize 1 2 0 1 noRead] = some m ∧
      m.displaydata.length = m.rows ∧ (∀ row ∈ m.displaydata, row.length = m.cols) ∧
        ∀ z < m.rows, Drawn m z := by
  have hstart : (startPage 1 2).map Textmatrix.cursorY = some 0 := by decide +kernel
  have hgrown : (pageStep (startPage 1 2) (.resize 1 3 0 1 noRead)).map Textmatrix.cursorY = some 1 := by
    decide +kernel
  have hall : AllSteps pageStep StepKeepsRow (startPage 1 2)
      [.resize 1 3 0 1 noRead, .resize 1 2 0 1 noRead] := by
    refine ⟨?_, ?_, trivial⟩
    · intro page hpage
      rw [hpage] at hstart
      have hy : page.cursorY = 0 := Option.some.inj hstart
      exact ⟨by simp [PageEvent.InSize], by change page.cursorY < 3; omega⟩
    · intro page hpage
      rw [hpage] at hgrown
      have hy : page.cursorY = 1 := Option.some.inj hgrown
      exact ⟨by simp [PageEvent.InSize], by change page.cursorY < 2; omega⟩
  exact page_survives (by decide) (by decide) hall List.prefix_rfl

/-- When the cursor's row goes away with the resize, redrawing it throws. -/
theorem page_throws :
    run pageStep (startPage 1 2) [.damage 0 0 0 1 noRead, .resize 1 1 0 0 noRead] = none := by
  decide +kernel

end Jterm.Page
