import Jterm.Lib.Runs
import Jterm.Vterm.State

/-!
The screen (screen.c) as webvterm_init sets it up: both buffers allocated, damage merged
by scrolling, no moverect callback. A buffer is a function of row and column; what the
code reads or writes through a null cell pointer is the memory at address 0.
-/
namespace Jterm.Vterm

open Runs

def maxCharsPerCell : ℕ := 6

/-- Behind a wide character. -/
def wideGap : ℕ := 2 ^ 32 - 1

structure ScreenCell where
  chars : List ℕ
  pen : VTermPen
  deriving DecidableEq, Repr

def ScreenCell.blank (pen : VTermPen) : ScreenCell := ⟨List.replicate maxCharsPerCell 0, pen⟩

/-- `chars[i] = c` for the characters of a glyph and the zero behind them. -/
def writeChars (old chars : List ℕ) : List ℕ :=
  let written := chars.take maxCharsPerCell
  written ++ if written.length < maxCharsPerCell then 0 :: old.drop (written.length + 1) else []

/-- `damageLog` are the rectangles given to screen_damage, `scrollPushes` the rows given to
scroll_buffer_push; a start row of -1 stands for no rectangle. -/
structure VTermScreen where
  rows : ℤ
  cols : ℤ
  damaged : VTermRect
  pendingScrollrect : VTermRect
  pendingScrollDownward : ℤ
  pendingScrollRightward : ℤ
  globalReverse : Bool
  buffer0 : ℤ → ℤ → ScreenCell
  buffer1 : ℤ → ℤ → ScreenCell
  onBuffer1 : Bool
  pen : VTermPen
  lowMemory : ℤ → ScreenCell
  damageLog : List VTermRect
  scrollPushes : List (List VTermScreenCell)

namespace VTermScreen

def buffer (s : VTermScreen) : ℤ → ℤ → ScreenCell := if s.onBuffer1 then s.buffer1 else s.buffer0

def setBuffer (s : VTermScreen) (buffer : ℤ → ℤ → ScreenCell) : VTermScreen :=
  if s.onBuffer1 then { s with buffer1 := buffer } else { s with buffer0 := buffer }

/-- `getcell` does not return null. -/
def Inside (s : VTermScreen) (row col : ℤ) : Prop :=
  0 ≤ row ∧ row < s.rows ∧ 0 ≤ col ∧ col < s.cols

instance (s : VTermScreen) (row col : ℤ) : Decidable (s.Inside row col) :=
  inferInstanceAs (Decidable (_ ∧ _))

/-- `vterm_screen_get_cell` -/
def getCell (s : VTermScreen) (row col : ℤ) : VTermScreenCell :=
  let cell := s.buffer row col
  { chars := (cell.chars.takeWhile (· ≠ 0)).map fun c => c.toUInt32
    reverse := cell.pen.reverse ^^ s.globalReverse
    fg := cell.pen.fg
    bg := cell.pen.bg }

def noDamage (rect : VTermRect) : VTermRect := { rect with startRow := -1 }

/-- VTERM_DAMAGE_SCROLL -/
def damagerect (s : VTermScreen) (rect : VTermRect) : VTermScreen :=
  { s with damaged := if s.damaged.startRow = -1 then rect else s.damaged.expand rect }

def damagescreen (s : VTermScreen) : VTermScreen := s.damagerect ⟨0, s.rows, 0, s.cols⟩

/-- The cells right of a wide character are marked; their pens stay. -/
def markGap (s : VTermScreen) (pos : VTermPos) (width : ℤ) : VTermScreen :=
  s.setBuffer fun row col =>
    let cell := s.buffer row col
    if row = pos.row ∧ pos.col < col ∧ col < pos.col + width ∧ s.Inside row col then
      { cell with chars := cell.chars.set 0 wideGap }
    else cell

def writeGlyph (s : VTermScreen) (chars : List ℕ) (pos : VTermPos) : VTermScreen :=
  s.setBuffer fun row col =>
    let cell := s.buffer row col
    if row = pos.row ∧ col = pos.col then
      { chars := writeChars cell.chars chars, pen := if chars = [] then cell.pen else s.pen }
    else cell

def putglyph (s : VTermScreen) (chars : List ℕ) (width : ℤ) (pos : VTermPos) : VTermScreen :=
  if s.Inside pos.row pos.col then
    ((s.writeGlyph chars pos).markGap pos width).damagerect
      ⟨pos.row, pos.row + 1, pos.col, pos.col + width⟩
  else s

/-- screen_prescroll of webvterm.c -/
def prescroll (s : VTermScreen) (rect : VTermRect) : VTermScreen :=
  if rect.startRow ≠ 0 ∨ rect.startCol ≠ 0 ∨ rect.endCol ≠ s.cols then s
  else
    { s with scrollPushes := s.scrollPushes ++
        (List.range rect.endRow.toNat).map fun (row : ℕ) =>
          (List.range s.cols.toNat).map fun (col : ℕ) => s.getCell row col }

/-- The rectangles moverect_internal passes to prescroll. -/
def prescrollRects (dest src : VTermRect) : List VTermRect :=
  (if dest.startRow < src.startRow then
      [⟨dest.startRow, src.startRow, dest.startCol, dest.endCol⟩]
    else if src.startRow < dest.startRow then
      [⟨src.endRow, dest.endRow, dest.startCol, dest.endCol⟩]
    else []) ++
  (if dest.startCol < src.startCol then
      [⟨dest.startRow, dest.endRow, dest.startCol, src.startCol⟩]
    else if src.startCol < dest.startCol then
      [⟨dest.startRow, dest.endRow, src.endCol, dest.endCol⟩]
    else [])

/-- `memmove` of `n` cells within or between rows; a null pointer is address 0. -/
def moveRow (s : VTermScreen) (row col srcRow srcCol n : ℤ) : VTermScreen :=
  let source : ℤ → ScreenCell := fun k =>
    if s.Inside srcRow srcCol then s.buffer srcRow (srcCol + k) else s.lowMemory k
  if s.Inside row col then
    s.setBuffer fun r c =>
      if r = row ∧ col ≤ c ∧ c < col + n then source (c - col) else s.buffer r c
  else
    { s with lowMemory := fun k => if 0 ≤ k ∧ k < n then source k else s.lowMemory k }

/-- The rows moverect_internal goes through, from below when the content moves down. -/
def moveRows (dest src : VTermRect) : List ℤ :=
  let rows := (List.range (dest.endRow - dest.startRow).toNat).map fun (k : ℕ) => dest.startRow + k
  if src.startRow - dest.startRow < 0 then rows.reverse else rows

theorem mem_moveRows {dest src : VTermRect} {row : ℤ}
    (h : row ∈ moveRows dest src) : dest.HasRow row := by
  have hmem : row ∈ (List.range (dest.endRow - dest.startRow).toNat).map
      fun (k : ℕ) => dest.startRow + (k : ℤ) := by
    unfold moveRows at h
    dsimp only at h
    split at h
    · exact List.mem_reverse.mp h
    · exact h
  obtain ⟨k, hk, rfl⟩ := List.mem_map.mp hmem
  rw [List.mem_range] at hk
  unfold VTermRect.HasRow
  omega

def moverectInternal (dest src : VTermRect) (s : VTermScreen) : VTermScreen :=
  let s := (prescrollRects dest src).foldl prescroll s
  (moveRows dest src).foldl (fun s row =>
    if row < 0 then s
    else
      s.moveRow row dest.startCol (row + (src.startRow - dest.startRow)) src.startCol
        (src.endCol - src.startCol)) s

/-- There is no moverect callback. -/
def moverectUser (dest _src : VTermRect) (s : VTermScreen) : VTermScreen := s.damagerect dest

def eraseInternal (rect : VTermRect) (s : VTermScreen) : VTermScreen :=
  s.setBuffer fun row col =>
    let cell := s.buffer row col
    if rect.HasCell row col ∧ s.Inside row col then ⟨cell.chars.set 0 0, s.pen⟩ else cell

def eraseUser (rect : VTermRect) (s : VTermScreen) : VTermScreen := s.damagerect rect

def erase (s : VTermScreen) (rect : VTermRect) : VTermScreen := eraseUser rect (eraseInternal rect s)

/-- The scroll that is still to be reported. -/
def flushScroll (s : VTermScreen) : VTermScreen :=
  if s.pendingScrollrect.startRow ≠ -1 then
    let s := vtermScrollRect s.pendingScrollrect s.pendingScrollDownward s.pendingScrollRightward
      moverectUser eraseUser s
    { s with pendingScrollrect := noDamage s.pendingScrollrect }
  else s

/-- `vterm_screen_flush_damage` -/
def flushDamage (s : VTermScreen) : VTermScreen :=
  let s := s.flushScroll
  if s.damaged.startRow ≠ -1 then
    { s with damageLog := s.damageLog ++ [s.damaged], damaged := noDamage s.damaged }
  else s

def setPending (s : VTermScreen) (rect : VTermRect) (downward rightward : ℤ) : VTermScreen :=
  { s with
    pendingScrollrect := rect
    pendingScrollDownward := downward
    pendingScrollRightward := rightward }

/-- Merge a scroll into the pending one, or flush it first. -/
def mergePending (s : VTermScreen) (rect : VTermRect) (downward rightward : ℤ) : VTermScreen :=
  if s.pendingScrollrect.startRow = -1 then s.setPending rect downward rightward
  else if s.pendingScrollrect = rect ∧
      ((s.pendingScrollDownward = 0 ∧ downward = 0) ∨
        (s.pendingScrollRightward = 0 ∧ rightward = 0)) then
    s.setPending rect (wrap32 (s.pendingScrollDownward + downward))
      (wrap32 (s.pendingScrollRightward + rightward))
  else s.flushDamage.setPending rect downward rightward

/-- Damage inside the scrolled rectangle moves with it. -/
def shiftDamage (s : VTermScreen) (rect : VTermRect) (downward rightward : ℤ) : VTermScreen :=
  if s.damaged.startRow ≠ -1 ∧ rect.Contains s.damaged then
    { s with damaged := (s.damaged.move (-downward) (-rightward)).clip rect }
  else s

def scrollrect (s : VTermScreen) (rect : VTermRect) (downward rightward : ℤ) : VTermScreen :=
  let s := vtermScrollRect rect downward rightward moverectInternal eraseInternal s
  let s :=
    if s.damaged.startRow ≠ -1 ∧ ¬ rect.Intersects s.damaged then s.flushDamage else s
  (s.mergePending rect downward rightward).shiftDamage rect downward rightward

def settermprop (s : VTermScreen) : TermProp → VTermScreen
  | .altscreen on =>
    let s := { s with onBuffer1 := on }
    if on then s else s.damagescreen
  | .reverse on => { s with globalReverse := on }.damagescreen
  | _ => s

/-- `realloc_buffer` -/
def reallocBuffer (s : VTermScreen) (buffer : ℤ → ℤ → ScreenCell) (rows cols : ℤ) :
    ℤ → ℤ → ScreenCell := fun row col =>
  if s.Inside row col ∧ row < rows ∧ col < cols then buffer row col else .blank s.pen

def resize (s : VTermScreen) (rows cols : ℤ) : VTermScreen :=
  let t := { s with
    buffer0 := s.reallocBuffer s.buffer0 rows cols
    buffer1 := s.reallocBuffer s.buffer1 rows cols
    rows := rows
    cols := cols }
  let t := if s.cols < cols then t.damagerect ⟨0, s.rows, s.cols, cols⟩ else t
  if s.rows < rows then t.damagerect ⟨s.rows, rows, 0, cols⟩ else t

/-- What the state asks for; there are no callbacks for the cursor, the mouse and the bell. -/
def exec (s : VTermScreen) : ScreenCall → VTermScreen
  | .putglyph chars width pos => s.putglyph chars width pos
  | .movecursor _ _ _ => s
  | .scrollrect rect downward rightward => s.scrollrect rect downward rightward
  | .erase rect => s.erase rect
  | .setpenattr attr => { s with pen := s.pen.set attr }
  | .settermprop prop => s.settermprop prop
  | .setmousefunc _ => s
  | .bell => s
  | .resize rows cols => s.resize rows cols
  | .flushDamage => s.flushDamage

/-! What a scroll does after the cells have moved changes nothing but the damage. -/

/-- From `s` to `t` only what is recorded and reported of the damage changes. -/
def DamageOnly (s t : VTermScreen) : Prop :=
  t = { s with
    damaged := t.damaged
    pendingScrollrect := t.pendingScrollrect
    pendingScrollDownward := t.pendingScrollDownward
    pendingScrollRightward := t.pendingScrollRightward
    damageLog := t.damageLog }

theorem DamageOnly.trans {s t u : VTermScreen} (hst : s.DamageOnly t) (htu : t.DamageOnly u) :
    s.DamageOnly u := by
  unfold DamageOnly at *
  rw [htu, hst]

theorem damageOnly_flushScroll (s : VTermScreen) : s.DamageOnly s.flushScroll := by
  unfold flushScroll vtermScrollRect
  split
  · dsimp only
    split
    · rfl
    · rfl
  · rfl

theorem damageOnly_flushDamage (s : VTermScreen) : s.DamageOnly s.flushDamage := by
  apply (damageOnly_flushScroll s).trans
  unfold flushDamage
  dsimp only
  split
  · rfl
  · rfl

theorem damageOnly_mergePending (s : VTermScreen) (rect : VTermRect) (downward rightward : ℤ) :
    s.DamageOnly (s.mergePending rect downward rightward) := by
  unfold mergePending
  split_ifs
  · rfl
  · rfl
  · exact (damageOnly_flushDamage s).trans rfl

theorem damageOnly_shiftDamage (s : VTermScreen) (rect : VTermRect) (downward rightward : ℤ) :
    s.DamageOnly (s.shiftDamage rect downward rightward) := by
  unfold shiftDamage
  split
  · rfl
  · rfl

/-- Behind the move itself. -/
theorem damageOnly_scrollrect (s : VTermScreen) (rect : VTermRect) (downward rightward : ℤ) :
    (vtermScrollRect rect downward rightward moverectInternal eraseInternal s).DamageOnly
      (s.scrollrect rect downward rightward) := by
  unfold scrollrect
  refine DamageOnly.trans ?_ ((damageOnly_mergePending _ rect downward rightward).trans
    (damageOnly_shiftDamage _ rect downward rightward))
  split
  · exact damageOnly_flushDamage _
  · rfl

/-! The size: only a resize changes it. -/

def size (s : VTermScreen) : ℤ × ℤ := (s.rows, s.cols)

theorem inside_of_size {s t : VTermScreen} (h : t.size = s.size) (row col : ℤ) :
    t.Inside row col ↔ s.Inside row col := by
  obtain ⟨hrows, hcols⟩ := Prod.mk.inj h
  unfold Inside
  rw [hrows, hcols]

@[simp] theorem size_setBuffer (s : VTermScreen) (buffer : ℤ → ℤ → ScreenCell) :
    (s.setBuffer buffer).size = s.size := by
  unfold setBuffer
  split
  · rfl
  · rfl

@[simp] theorem size_damagerect (s : VTermScreen) (rect : VTermRect) :
    (s.damagerect rect).size = s.size := rfl

@[simp] theorem size_moveRow (s : VTermScreen) (row col srcRow srcCol n : ℤ) :
    (s.moveRow row col srcRow srcCol n).size = s.size := by
  unfold moveRow
  dsimp only
  split
  · exact size_setBuffer s _
  · rfl

@[simp] theorem size_prescroll (s : VTermScreen) (rect : VTermRect) :
    (s.prescroll rect).size = s.size := by
  unfold prescroll
  split
  · rfl
  · rfl

@[simp] theorem size_moverectInternal (dest src : VTermRect) (s : VTermScreen) :
    (moverectInternal dest src s).size = s.size := by
  have hpushed : ((prescrollRects dest src).foldl prescroll s).size = s.size :=
    invariant_of_step prescroll (fun t : VTermScreen => t.size = s.size)
      (fun t rect ht => (size_prescroll t rect).trans ht) _ rfl
  unfold moverectInternal
  refine invariant_of_step _ (fun t : VTermScreen => t.size = s.size) ?_ _ hpushed
  intro t row ht
  split
  · exact ht
  · rw [size_moveRow]
    exact ht

@[simp] theorem size_eraseInternal (rect : VTermRect) (s : VTermScreen) :
    (eraseInternal rect s).size = s.size := size_setBuffer s _

theorem size_vtermScrollRect {moverect : VTermRect → VTermRect → VTermScreen → VTermScreen}
    {eraserect : VTermRect → VTermScreen → VTermScreen}
    (hmove : ∀ dest src s, (moverect dest src s).size = s.size)
    (herase : ∀ rect s, (eraserect rect s).size = s.size) (rect : VTermRect)
    (downward rightward : ℤ) (s : VTermScreen) :
    (vtermScrollRect rect downward rightward moverect eraserect s).size = s.size := by
  unfold vtermScrollRect
  split
  · exact herase rect s
  · rw [herase, hmove]

theorem DamageOnly.size {s t : VTermScreen} (h : s.DamageOnly t) : t.size = s.size := by
  rw [h]
  rfl

@[simp] theorem size_flushDamage (s : VTermScreen) : s.flushDamage.size = s.size :=
  (damageOnly_flushDamage s).size

@[simp] theorem size_scrollrect (s : VTermScreen) (rect : VTermRect) (downward rightward : ℤ) :
    (s.scrollrect rect downward rightward).size = s.size := by
  rw [(damageOnly_scrollrect s rect downward rightward).size]
  exact size_vtermScrollRect size_moverectInternal size_eraseInternal rect downward rightward s

@[simp] theorem size_putglyph (s : VTermScreen) (chars : List ℕ) (width : ℤ) (pos : VTermPos) :
    (s.putglyph chars width pos).size = s.size := by
  unfold putglyph writeGlyph markGap
  split
  · simp
  · rfl

@[simp] theorem size_settermprop (s : VTermScreen) (prop : TermProp) :
    (s.settermprop prop).size = s.size := by
  unfold settermprop
  split
  · dsimp only
    split
    · rfl
    · rfl
  · rfl
  · rfl

@[simp] theorem size_resize (s : VTermScreen) (rows cols : ℤ) :
    (s.resize rows cols).size = (rows, cols) := by
  unfold resize
  dsimp only
  split_ifs
  · rfl
  · rfl
  · rfl
  · rfl

theorem size_exec {s : VTermScreen} {c : ScreenCall} (h : ∀ rows cols, c ≠ .resize rows cols) :
    (s.exec c).size = s.size := by
  cases c with
  | putglyph chars width pos => exact size_putglyph s chars width pos
  | scrollrect rect downward rightward => exact size_scrollrect s rect downward rightward
  | erase rect => exact size_setBuffer s _
  | settermprop prop => exact size_settermprop s prop
  | resize rows cols => exact absurd rfl (h rows cols)
  | flushDamage => exact size_flushDamage s
  | movecursor | setpenattr | setmousefunc | bell => rfl

end VTermScreen

end Jterm.Vterm
