import Jterm.Page.Textmatrix
import Jterm.Vterm.Pen
import Mathlib.Algebra.Ring.Int.Defs
import Mathlib.Data.List.GetD

/-!
The page's copy of a terminal row. `webvterm_get_row` fills four transfer buffers,
`webvterm_damage_cb` copies them into the matrix unless the row's text, read back
as UTF-8, equals the text the matrix shows. Equal texts have equal characters, so
what the test can miss is a change of colour or of the reverse flag alone.
-/
namespace Jterm.Page

open Vterm

/-- The terminal as webvterm.c shows it to the page. -/
structure Terminal where
  rows : ℕ
  cols : ℕ
  screen : List (List VTermScreenCell)
  cursorX : ℤ
  cursorY : ℤ
  deriving DecidableEq, Repr

/-- A screen row in `rowdata_buffer`. -/
def grabRow (t : Terminal) (trow : ℕ) : List VTermScreenCell :=
  (t.screen.getD trow []).take t.cols

def colourNumber (c : VTermColor) : ℕ :=
  c.red.toNat * 2 ^ 16 + c.green.toNat * 2 ^ 8 + c.blue.toNat

/-- `text_buffer[n]`: the low byte of the first character, a space for zero. -/
def textByte (cell : VTermScreenCell) : UInt8 :=
  let c := (cell.chars.headD 0).toUInt8
  if c = 0 then 0x20 else c

/-- The transfer buffers, as far as a row fills them; `text` is without its terminator. -/
structure RowBuffers where
  text : List UInt8
  bg : List ℕ
  fg : List ℕ
  rev : List ℕ
  deriving DecidableEq, Repr

def webvtermGetRow (t : Terminal) (crow : ℕ) : RowBuffers :=
  let rowdata := grabRow t crow
  ⟨rowdata.map textByte, rowdata.map fun c => colourNumber c.bg,
    rowdata.map fun c => colourNumber c.fg, rowdata.map fun c => c.reverse.toNat⟩

/-- `Runtime.UTF8Processor` -/
structure Utf8Processor where
  buffer : List UInt8
  needed : ℕ
  deriving DecidableEq, Repr

/-- `String.fromCharCode` -/
def fromCharCode (n : ℤ) : UInt16 := (n % 2 ^ 16).toNat.toUInt16

/-- The units of a complete sequence, without any check of its bytes. -/
def sequenceUnits (buffer : List UInt8) : JsString :=
  let c1 := (buffer.getD 0 0).toNat
  let c2 := (buffer.getD 1 0).toNat
  let c3 := (buffer.getD 2 0).toNat
  let c4 := (buffer.getD 3 0).toNat
  if buffer.length = 2 then [fromCharCode (c1 % 32 * 64 + c2 % 64 : ℕ)]
  else if buffer.length = 3 then
    [fromCharCode (c1 % 16 * 4096 + c2 % 64 * 64 + c3 % 64 : ℕ)]
  else
    let codePoint : ℤ := (c1 % 8 * 2 ^ 18 + c2 % 64 * 4096 + c3 % 64 * 64 + c4 % 64 : ℕ)
    [fromCharCode ((codePoint - 0x10000).tdiv 0x400 + 0xd800),
      fromCharCode ((codePoint - 0x10000).tmod 0x400 + 0xdc00)]

def processCChar (utf8 : Utf8Processor) (code : UInt8) : JsString × Utf8Processor :=
  if utf8.buffer = [] then
    if code < 0x80 then ([code.toUInt16], utf8)
    else
      let needed := if code &&& 0xe0 = 0xc0 then 1 else if code &&& 0xf0 = 0xe0 then 2 else 3
      ([], ⟨[code], needed⟩)
  else
    let utf8 := if utf8.needed ≠ 0 then ⟨utf8.buffer ++ [code], utf8.needed - 1⟩ else utf8
    if 0 < utf8.needed then ([], utf8) else (sequenceUnits utf8.buffer, ⟨[], utf8.needed⟩)

def processAll (utf8 : Utf8Processor) : List UInt8 → JsString
  | [] => []
  | code :: rest => (processCChar utf8 code).1 ++ processAll (processCChar utf8 code).2 rest

/-- `Pointer_stringify` of a zero-terminated string. -/
def pointerStringify (bytes : List UInt8) : JsString :=
  let string := bytes.takeWhile (· ≠ 0)
  if string.all (· < 0x80) then string.map UInt8.toUInt16 else processAll ⟨[], 0⟩ string

/-- `String.fromCharCode` of a byte read as i8. -/
def fromI8 (b : UInt8) : UInt16 := if b < 0x80 then b.toUInt16 else 0xff00 + b.toUInt16

/-- What the four buffers hold for one column. -/
def cellOf (buffers : RowBuffers) (cx : ℕ) : Cell :=
  ⟨fromI8 (buffers.text.getD cx 0), buffers.fg.getD cx 0, buffers.bg.getD cx 0,
    some (buffers.rev.getD cx 0)⟩

def copyRow (buffers : RowBuffers) (cy : ℕ) (m : Textmatrix) (cx : ℕ) : Option Textmatrix :=
  let textbuffer := buffers.text.map fromI8
  textmatrixSetpos m cx cy (textbuffer.getD cx 0) (buffers.bg.getD cx 0) (buffers.fg.getD cx 0)
    (buffers.rev.getD cx 0)

/-- The body of the loop of webvterm_damage_cb. -/
def repaintRow (t : Terminal) (m : Textmatrix) (cy : ℕ) : Option Textmatrix := do
  let buffers := webvtermGetRow t cy
  let bufferStr := pointerStringify (buffers.text ++ [0])
  let currentLine ← textmatrixGetlineTxt m cy
  if bufferStr ≠ currentLine then
    let m ← (List.range m.cols).foldlM (copyRow buffers cy) m
    textmatrixRedrawLine m cy
  else some m

def webvtermDamageCb (t : Terminal) (m : Textmatrix) (startRow endRow : ℕ) :
    Option Textmatrix := do
  let m ← textmatrixDrawCursor m t.cursorX t.cursorY
  (List.range' startRow (endRow - startRow)).foldlM (repaintRow t) m

/-- A sequence in progress: at least one byte is in and at least one more is needed. -/
def Pending (utf8 : Utf8Processor) : Prop :=
  1 ≤ utf8.buffer.length ∧ 1 ≤ utf8.needed ∧ utf8.buffer.length + utf8.needed ≤ 4

theorem sequenceUnits_length_lt (buffer : List UInt8) (h : 2 ≤ buffer.length) :
    (sequenceUnits buffer).length < buffer.length := by
  unfold sequenceUnits
  split
  · simp only [List.length_singleton]
    omega
  · split
    · simp only [List.length_singleton]
      omega
    · simp only [List.length_cons, List.length_nil]
      omega

theorem processCChar_start (code : UInt8) (h : 0x80 ≤ code) :
    ∃ utf8, processCChar ⟨[], 0⟩ code = ([], utf8) ∧ Pending utf8 ∧ utf8.buffer.length = 1 := by
  have hnot : ¬ code < 0x80 := UInt8.not_lt.mpr h
  refine ⟨⟨[code], if code &&& 0xe0 = 0xc0 then 1 else if code &&& 0xf0 = 0xe0 then 2 else 3⟩,
    by simp only [processCChar, if_true, hnot, if_false], ⟨Nat.le_refl _, ?_, ?_⟩, rfl⟩
  · dsimp only
    split
    · decide
    · split <;> decide
  · dsimp only [List.length_singleton]
    split
    · decide
    · split <;> decide

/-- One more byte either leaves the sequence in progress or ends it with fewer units
than it has bytes. -/
theorem processCChar_pending {utf8 : Utf8Processor} (code : UInt8) (h : Pending utf8) :
    (∃ next, processCChar utf8 code = ([], next) ∧ Pending next ∧
        next.buffer.length = utf8.buffer.length + 1) ∨
      ∃ units, processCChar utf8 code = (units, ⟨[], 0⟩) ∧
        units.length ≤ utf8.buffer.length := by
  obtain ⟨hbuffer, hneeded, htotal⟩ := h
  have hne : utf8.buffer ≠ [] := by
    intro hnil
    simp [hnil] at hbuffer
  have hpos : utf8.needed ≠ 0 := by omega
  by_cases hmore : 0 < utf8.needed - 1
  · left
    refine ⟨⟨utf8.buffer ++ [code], utf8.needed - 1⟩, ?_, ⟨?_, hmore, ?_⟩, ?_⟩
    · simp [processCChar, hne, hpos, hmore]
    · simp
    · simp only [List.length_append, List.length_singleton]
      omega
    · simp
  · right
    have hzero : utf8.needed - 1 = 0 := by omega
    refine ⟨sequenceUnits (utf8.buffer ++ [code]), ?_, ?_⟩
    · simp [processCChar, hne, hpos, hzero]
    · have hlt := sequenceUnits_length_lt (utf8.buffer ++ [code]) (by simp; omega)
      simp only [List.length_append, List.length_singleton] at hlt
      omega

/-- The units never outnumber the bytes, and a sequence in progress costs one. -/
theorem processAll_length (bytes : List UInt8) :
    (processAll ⟨[], 0⟩ bytes).length ≤ bytes.length ∧
      ((∃ b ∈ bytes, 0x80 ≤ b) → (processAll ⟨[], 0⟩ bytes).length < bytes.length) ∧
      ∀ utf8, Pending utf8 →
        (processAll utf8 bytes).length < bytes.length + utf8.buffer.length := by
  induction bytes with
  | nil =>
    refine ⟨Nat.le_refl _, by simp, fun utf8 h => ?_⟩
    have := h.1
    simp only [processAll, List.length_nil]
    omega
  | cons code rest ih =>
    obtain ⟨hle, hlt, hpending⟩ := ih
    have hidle : (processAll ⟨[], 0⟩ (code :: rest)).length ≤ rest.length + 1 ∧
        ((∃ b ∈ code :: rest, 0x80 ≤ b) →
          (processAll ⟨[], 0⟩ (code :: rest)).length < rest.length + 1) := by
      by_cases hcode : code < 0x80
      · have hstep : processCChar ⟨[], 0⟩ code = ([code.toUInt16], ⟨[], 0⟩) := by
          simp [processCChar, hcode]
        simp only [processAll, hstep, List.length_append, List.length_singleton]
        refine ⟨by omega, ?_⟩
        rintro ⟨b, hb, hhigh⟩
        have hrest : b ∈ rest := by
          rcases List.mem_cons.mp hb with rfl | hmem
          · exact absurd hcode (UInt8.not_lt.mpr hhigh)
          · exact hmem
        have := hlt ⟨b, hrest, hhigh⟩
        omega
      · obtain ⟨utf8, hstep, hutf8, hone⟩ := processCChar_start code (UInt8.not_lt.mp hcode)
        have := hpending utf8 hutf8
        simp only [processAll, hstep, List.nil_append]
        omega
    refine ⟨hidle.1, hidle.2, fun utf8 h => ?_⟩
    rcases processCChar_pending code h with ⟨next, hstep, hnext, hlen⟩ | ⟨units, hstep, hlen⟩
    · have := hpending next hnext
      simp only [processAll, hstep, List.nil_append, List.length_cons]
      omega
    · simp only [processAll, hstep, List.length_append, List.length_cons]
      omega

theorem textByte_ne_zero (cell : VTermScreenCell) : textByte cell ≠ 0 := by
  unfold textByte
  dsimp only
  split
  · decide
  · assumption

/-- A row's text read back has the row's length only if it is ASCII, and then the
characters are the bytes. -/
theorem pointerStringify_of_length {text : List UInt8} (hzero : ∀ b ∈ text, b ≠ 0)
    (hlength : (pointerStringify (text ++ [0])).length = text.length) :
    pointerStringify (text ++ [0]) = text.map fromI8 := by
  have hstring : (text ++ [0]).takeWhile (· ≠ 0) = text := by
    rw [List.takeWhile_append_of_pos (by simpa using hzero)]
    simp
  unfold pointerStringify at hlength ⊢
  rw [hstring] at hlength ⊢
  by_cases hall : text.all (· < 0x80) = true
  · rw [if_pos hall]
    apply List.map_congr_left
    intro b hb
    have hlow : b < 0x80 := by simpa using List.all_eq_true.mp hall b hb
    simp [fromI8, hlow]
  · rw [if_neg hall] at hlength
    have hhigh : ∃ b ∈ text, 0x80 ≤ b := by
      simpa using hall
    have := (processAll_length text).2.1 hhigh
    omega

/-- Matrix and terminal have one size, which fits the transfer buffers. -/
structure SameSize (t : Terminal) (m : Textmatrix) : Prop where
  rows : m.displaydata.length = t.rows
  cols : m.cols = t.cols
  row : ∀ row ∈ m.displaydata, row.length = t.cols
  screen : t.screen.length = t.rows
  screenRow : ∀ row ∈ t.screen, row.length = t.cols
  fits : 0 < t.cols ∧ t.cols < 256

/-- The row that copying without a test leaves in the matrix. -/
def copiedRow (t : Terminal) (cy : ℕ) : List Cell :=
  (List.range t.cols).map (cellOf (webvtermGetRow t cy))

/-- The test of webvterm_damage_cb finds the row unchanged. -/
def Skipped (t : Terminal) (m : Textmatrix) (cy : ℕ) : Prop :=
  textmatrixGetlineTxt m cy = some (pointerStringify ((webvtermGetRow t cy).text ++ [0]))

def Cell.colours (cell : Cell) : ℕ × ℕ × Option ℕ := (cell.bg, cell.fg, cell.reverse)

/-- The row in the matrix has the terminal's colours and reverse flags. -/
def ColoursShown (t : Terminal) (m : Textmatrix) (cy : ℕ) : Prop :=
  (m.displaydata.getD cy []).map Cell.colours = (copiedRow t cy).map Cell.colours

theorem grabRow_length {t : Terminal} {m : Textmatrix} {cy : ℕ} (h : SameSize t m)
    (hcy : cy < t.rows) : (grabRow t cy).length = t.cols := by
  have hlt : cy < t.screen.length := by
    rw [h.screen]
    exact hcy
  rw [grabRow, List.getD_eq_getElem _ _ hlt, List.length_take,
    h.screenRow _ (List.getElem_mem hlt), Nat.min_self]

theorem redrawLine_displaydata {m m' : Textmatrix} {y : ℤ} (h : textmatrixRedrawLine m y = some m') :
    m'.displaydata = m.displaydata ∧ m'.cols = m.cols := by
  obtain ⟨newline, -, hset⟩ := Option.bind_eq_some_iff.mp h
  split at hset
  · cases hset
    exact ⟨rfl, rfl⟩
  · simp at hset

theorem drawCursor_displaydata {m m' : Textmatrix} {x y : ℤ}
    (h : textmatrixDrawCursor m x y = some m') :
    m'.displaydata = m.displaydata ∧ m'.cols = m.cols := by
  obtain ⟨next, hfirst, hsecond⟩ := Option.bind_eq_some_iff.mp h
  have hnext : next.displaydata = m.displaydata ∧ next.cols = m.cols := by
    generalize (if x ≠ m.cursorX ∨ y ≠ m.cursorY then m.cursorY else -1) = redrawY at hfirst
    by_cases hredraw : redrawY ≠ -1
    · rw [if_pos hredraw] at hfirst
      have hkeep := redrawLine_displaydata hfirst
      exact hkeep
    · rw [if_neg hredraw] at hfirst
      cases hfirst
      exact ⟨rfl, rfl⟩
  obtain ⟨hdata, hcols⟩ := redrawLine_displaydata hsecond
  exact ⟨hdata.trans hnext.1, hcols.trans hnext.2⟩

theorem copyRow_cell (buffers : RowBuffers) (cy cx : ℕ) (m : Textmatrix) (row : List Cell)
    (hrow : m.displaydata[cy]? = some row) (hcx : cx < row.length) :
    copyRow buffers cy m cx =
      some { m with displaydata := m.displaydata.set cy (row.set cx (cellOf buffers cx)) } := by
  have htext : (buffers.text.map fromI8).getD cx 0 = fromI8 (buffers.text.getD cx 0) :=
    List.getD_map buffers.text 0 fromI8
  simp only [copyRow, textmatrixSetpos, hrow, Option.bind_eq_bind, Option.bind_some, hcx, if_true,
    htext, cellOf]

/-- After `n` columns of the inner loop the row's first `n` cells are the terminal's. -/
theorem copyRow_fold (buffers : RowBuffers) (cy : ℕ) (m : Textmatrix) (row : List Cell)
    (hrow : m.displaydata[cy]? = some row) (n : ℕ) (hn : n ≤ row.length) :
    (List.range n).foldlM (copyRow buffers cy) m =
      some { m with displaydata :=
        m.displaydata.set cy ((List.range n).map (cellOf buffers) ++ row.drop n) } := by
  obtain ⟨hcy, hget⟩ := List.getElem?_eq_some_iff.mp hrow
  induction n with
  | zero => simp [← hget]
  | succ n ih =>
    rw [List.range_succ, List.foldlM_append, ih (by omega)]
    simp only [Option.bind_eq_bind, Option.bind_some, List.foldlM_cons, List.foldlM_nil]
    rw [copyRow_cell buffers cy n _ ((List.range n).map (cellOf buffers) ++ row.drop n)
      (by simp [hcy]) (by simp; omega)]
    rw [List.set_set, List.set_append_right _ _ (by simp), List.map_append, List.append_assoc]
    simp only [List.length_map, List.length_range, Nat.sub_self, List.map_cons, List.map_nil,
      List.drop_eq_getElem_cons (show n < row.length by omega), List.set_cons_zero,
      List.singleton_append, pure, Option.bind_some]

/-- A row that the test finds changed is copied whole, no other row is touched. -/
theorem repaintRow_spec {t : Terminal} {m m' : Textmatrix} {cy : ℕ} (hsize : SameSize t m)
    (hcy : cy < t.rows) (h : repaintRow t m cy = some m') :
    SameSize t m' ∧ (Skipped t m cy → m'.displaydata = m.displaydata) ∧
      (¬ Skipped t m cy → m'.displaydata = m.displaydata.set cy (copiedRow t cy)) := by
  have hlt : cy < m.displaydata.length := by
    rw [hsize.rows]
    exact hcy
  obtain ⟨row, hrow⟩ : ∃ row, m.displaydata[cy]? = some row := ⟨_, List.getElem?_eq_getElem hlt⟩
  have hlength : row.length = t.cols := hsize.row row (List.mem_of_getElem? hrow)
  have hline : textmatrixGetlineTxt m cy = some (row.map Cell.char) := by
    simp [textmatrixGetlineTxt, Textmatrix.row, hrow]
  simp only [repaintRow, hline, Option.bind_eq_bind, Option.bind_some] at h
  split at h
  · rename_i hchanged
    have hnot : ¬ Skipped t m cy := by
      intro hskip
      unfold Skipped at hskip
      rw [hline, Option.some.injEq] at hskip
      exact hchanged hskip.symm
    rw [hsize.cols, copyRow_fold _ cy m row hrow t.cols (by omega), Option.bind_some] at h
    obtain ⟨hdata, hcols⟩ := redrawLine_displaydata h
    have hcopied : m'.displaydata = m.displaydata.set cy (copiedRow t cy) := by
      rw [hdata, List.drop_eq_nil_of_le (by omega), List.append_nil]
      rfl
    refine ⟨⟨?_, hcols.trans hsize.cols, ?_, hsize.screen, hsize.screenRow, hsize.fits⟩,
      fun hskip => absurd hskip hnot, fun _ => hcopied⟩
    · rw [hcopied, List.length_set, hsize.rows]
    · intro other hmem
      rw [hcopied] at hmem
      rcases List.mem_or_eq_of_mem_set hmem with hold | hnew
      · exact hsize.row other hold
      · rw [hnew, copiedRow, List.length_map, List.length_range]
  · rename_i hsame
    have hskip : Skipped t m cy := by
      unfold Skipped
      rw [hline, not_not.mp hsame]
    cases h
    exact ⟨hsize, fun _ => rfl, fun hnot => absurd hskip hnot⟩

/-- The loop over the rows from `start` on. -/
theorem repaintRow_fold {t : Terminal} (n start : ℕ) {m m' : Textmatrix} (hsize : SameSize t m)
    (hn : start + n ≤ t.rows)
    (h : (List.range' start n).foldlM (repaintRow t) m = some m') (y : ℕ) :
    (start ≤ y → y < start + n → ¬ Skipped t m y → m'.displaydata[y]? = some (copiedRow t y)) ∧
      (Skipped t m y ∨ y < start ∨ start + n ≤ y → m'.displaydata[y]? = m.displaydata[y]?) := by
  induction n generalizing start m with
  | zero =>
    cases h
    exact ⟨fun h1 h2 => by omega, fun _ => rfl⟩
  | succ n ih =>
    rw [List.range'_succ, List.foldlM_cons] at h
    obtain ⟨next, hfirst, hrest⟩ := Option.bind_eq_some_iff.mp h
    obtain ⟨hnext, hskip, hcopy⟩ := repaintRow_spec hsize (by omega) hfirst
    obtain ⟨hin, hout⟩ := ih (start + 1) hnext (by omega) hrest
    have hother : y ≠ start → next.displaydata[y]? = m.displaydata[y]? := by
      intro hne
      by_cases hs : Skipped t m start
      · rw [hskip hs]
      · rw [hcopy hs, List.getElem?_set_ne (Ne.symm hne)]
    have hsame : y ≠ start → (Skipped t next y ↔ Skipped t m y) := by
      intro hne
      simp only [Skipped, textmatrixGetlineTxt, Textmatrix.row, Int.natCast_nonneg, if_true,
        Int.toNat_natCast, hother hne]
    constructor
    · intro h1 h2 hnot
      by_cases hy : y = start
      · subst hy
        have hlt : y < m.displaydata.length := by
          rw [hsize.rows]
          omega
        rw [hout (Or.inr (Or.inl (by omega))), hcopy hnot, List.getElem?_set_self hlt]
      · exact hin (by omega) (by omega) (fun hs => hnot ((hsame hy).mp hs))
    · intro hcase
      by_cases hy : y = start
      · subst hy
        have hs : Skipped t m y := by
          rcases hcase with hs | hs
          · exact hs
          · omega
        rw [hout (Or.inr (Or.inl (by omega))), hskip hs]
      · rw [hout, hother hy]
        rcases hcase with hs | hs
        · exact Or.inl ((hsame hy).mpr hs)
        · right
          omega

/-- A skipped row has the terminal's characters, so only its colours can differ. -/
theorem skipped_row_eq_iff {t : Terminal} {m : Textmatrix} {y : ℕ} (hsize : SameSize t m)
    (hy : y < t.rows) (hskip : Skipped t m y) :
    m.displaydata[y]? = some (copiedRow t y) ↔ ColoursShown t m y := by
  have hlt : y < m.displaydata.length := by
    rw [hsize.rows]
    exact hy
  obtain ⟨row, hrow⟩ : ∃ row, m.displaydata[y]? = some row := ⟨_, List.getElem?_eq_getElem hlt⟩
  have hlength : row.length = t.cols := hsize.row row (List.mem_of_getElem? hrow)
  have htextLength : (webvtermGetRow t y).text.length = t.cols := by
    simp [webvtermGetRow, grabRow_length hsize hy]
  have hshown : row.map Cell.char = pointerStringify ((webvtermGetRow t y).text ++ [0]) := by
    simpa [Skipped, textmatrixGetlineTxt, Textmatrix.row, hrow] using hskip
  have hzero : ∀ b ∈ (webvtermGetRow t y).text, b ≠ 0 := by
    intro b hb
    obtain ⟨cell, -, rfl⟩ := List.mem_map.mp hb
    exact textByte_ne_zero cell
  have hchars : row.map Cell.char = (copiedRow t y).map Cell.char := by
    rw [hshown, pointerStringify_of_length hzero
      (by rw [← hshown, List.length_map, hlength, htextLength])]
    apply List.ext_getElem
    · simp [copiedRow, htextLength]
    · intro i h1 h2
      have hi : i < (webvtermGetRow t y).text.length := by simpa using h1
      simp [copiedRow, cellOf, List.getElem?_eq_getElem hi]
  rw [hrow, Option.some.injEq, ColoursShown, List.getD_eq_getElem?_getD, hrow, Option.getD_some]
  refine ⟨fun heq => by rw [heq], fun hcolours => ?_⟩
  apply List.ext_getElem
  · simp [copiedRow, hlength]
  · intro i h1 h2
    have hchar : row[i].char = (copiedRow t y)[i].char := by
      have := List.getElem_of_eq hchars (show i < (row.map Cell.char).length by simpa using h1)
      simpa using this
    have hcolour : row[i].colours = (copiedRow t y)[i].colours := by
      have := List.getElem_of_eq hcolours
        (show i < (row.map Cell.colours).length by simpa using h1)
      simpa using this
    simp only [Cell.colours, Prod.mk.injEq] at hcolour
    cases hcell : row[i]
    cases hcell' : (copiedRow t y)[i]
    simp_all

/-- After a repaint the damaged rows are the terminal's exactly when no row with an
unchanged text has changed its colours or its reverse flags. -/
theorem webvtermDamageCb_copies_iff (t : Terminal) (m m' : Textmatrix) (startRow endRow : ℕ)
    (hsize : SameSize t m) (hstart : startRow ≤ endRow) (hend : endRow ≤ t.rows)
    (h : webvtermDamageCb t m startRow endRow = some m') :
    (∀ y, startRow ≤ y → y < endRow → m'.displaydata[y]? = some (copiedRow t y)) ↔
      ∀ y, startRow ≤ y → y < endRow → Skipped t m y → ColoursShown t m y := by
  obtain ⟨drawn, hcursor, hloop⟩ := Option.bind_eq_some_iff.mp h
  obtain ⟨hdata, hcols⟩ := drawCursor_displaydata hcursor
  have hdrawn : SameSize t drawn :=
    ⟨by rw [hdata, hsize.rows], hcols.trans hsize.cols, by rw [hdata]; exact hsize.row,
      hsize.screen, hsize.screenRow, hsize.fits⟩
  have hsame : ∀ y, Skipped t drawn y ↔ Skipped t m y := by
    intro y
    simp only [Skipped, textmatrixGetlineTxt, Textmatrix.row, hdata]
  apply forall_congr'
  intro y
  apply forall_congr'
  intro h1
  apply forall_congr'
  intro h2
  obtain ⟨hcopied, hkept⟩ := repaintRow_fold (endRow - startRow) startRow hdrawn (by omega) hloop y
  by_cases hskip : Skipped t m y
  · rw [hkept (Or.inl ((hsame y).mpr hskip)), hdata, skipped_row_eq_iff hsize (by omega) hskip]
    simp [hskip]
  · rw [hcopied h1 (by omega) (fun hs => hskip ((hsame y).mp hs))]
    simp [hskip]

def black : VTermColor := ⟨0, 0, 0⟩
def white : VTermColor := ⟨255, 255, 255⟩
def red : VTermColor := ⟨224, 0, 0⟩

/-- One row of one cell, and the matrix that shows it in white on black. -/
def oneCell (c : UInt32) (fg : VTermColor) : Terminal :=
  ⟨1, 1, [[⟨[c], false, fg, black⟩]], 0, 0⟩
def oneCellShown (c : UInt16) : Textmatrix :=
  ⟨[[⟨c, 0xffffff, 0, some 0⟩]], 0, 0, 1, 1, [[]]⟩

theorem sameSize_oneCell (c : UInt32) (fg : VTermColor) (c' : UInt16) :
    SameSize (oneCell c fg) (oneCellShown c') :=
  ⟨rfl, rfl, by simp [oneCellShown, oneCell], rfl, by simp [oneCell], by simp [oneCell]⟩

theorem webvtermDamageCb_copies_iff_changed :
    ∃ m', webvtermDamageCb (oneCell 0x42 red) (oneCellShown 0x41) 0 1 = some m' ∧
      ∀ y, 0 ≤ y → y < 1 → m'.displaydata[y]? = some (copiedRow (oneCell 0x42 red) y) := by
  obtain ⟨m', hreturns⟩ := Option.isSome_iff_exists.mp (show (webvtermDamageCb (oneCell 0x42 red)
    (oneCellShown 0x41) 0 1).isSome = true by decide)
  refine ⟨m', hreturns, (webvtermDamageCb_copies_iff _ _ m' 0 1 (sameSize_oneCell _ _ _)
    (by decide) (by decide) hreturns).mpr ?_⟩
  intro y _ hy hskip
  obtain rfl : y = 0 := by omega
  exact absurd hskip (by unfold Skipped; decide)

/-- A character that turns red on the terminal stays white on the page. -/
theorem webvtermDamageCb_misses_colour :
    SameSize (oneCell 0x41 red) (oneCellShown 0x41) ∧
      (webvtermDamageCb (oneCell 0x41 red) (oneCellShown 0x41) 0 1).map Textmatrix.displaydata =
        some (oneCellShown 0x41).displaydata ∧
      (oneCellShown 0x41).displaydata[0]? ≠ some (copiedRow (oneCell 0x41 red) 0) :=
  ⟨sameSize_oneCell _ _ _, by decide, by decide⟩

end Jterm.Page
