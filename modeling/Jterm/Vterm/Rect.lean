import Mathlib.Algebra.Ring.Nat
import Mathlib.Data.Int.Notation
import Mathlib.Tactic.Common

/-!
Positions and rectangles, and the geometry of `vterm_scroll_rect`. A C int is an
integer; where the bytes of the server can drive a sum out of 32 bits it is wrapped.
-/
namespace Jterm.Vterm

/-- A sum of C ints. -/
def wrap32 (z : ℤ) : ℤ := z.bmod (2 ^ 32)

structure VTermPos where
  row : ℤ
  col : ℤ
  deriving DecidableEq, Repr

structure VTermRect where
  startRow : ℤ
  endRow : ℤ
  startCol : ℤ
  endCol : ℤ
  deriving DecidableEq, Repr

def VTermRect.move (rect : VTermRect) (rowDelta colDelta : ℤ) : VTermRect :=
  { startRow := wrap32 (rect.startRow + rowDelta)
    endRow := wrap32 (rect.endRow + rowDelta)
    startCol := wrap32 (rect.startCol + colDelta)
    endCol := wrap32 (rect.endCol + colDelta) }

/-- `rect_expand` -/
def VTermRect.expand (dst src : VTermRect) : VTermRect :=
  { startRow := min dst.startRow src.startRow
    endRow := max dst.endRow src.endRow
    startCol := min dst.startCol src.startCol
    endCol := max dst.endCol src.endCol }

/-- `rect_clip`; the last step keeps the size from being negative. -/
def VTermRect.clip (dst bounds : VTermRect) : VTermRect :=
  let startRow := max dst.startRow bounds.startRow
  let startCol := max dst.startCol bounds.startCol
  { startRow := startRow
    endRow := max (min dst.endRow bounds.endRow) startRow
    startCol := startCol
    endCol := max (min dst.endCol bounds.endCol) startCol }

/-- `rect_contains` -/
def VTermRect.Contains (big small : VTermRect) : Prop :=
  big.startRow ≤ small.startRow ∧ big.startCol ≤ small.startCol ∧
    small.endRow ≤ big.endRow ∧ small.endCol ≤ big.endCol

instance (big small : VTermRect) : Decidable (big.Contains small) :=
  inferInstanceAs (Decidable (_ ∧ _))

/-- `rect_intersects`; rectangles that touch intersect. -/
def VTermRect.Intersects (a b : VTermRect) : Prop :=
  ¬ (b.endRow < a.startRow ∨ a.endRow < b.startRow) ∧
    ¬ (b.endCol < a.startCol ∨ a.endCol < b.startCol)

instance (a b : VTermRect) : Decidable (a.Intersects b) := inferInstanceAs (Decidable (_ ∧ _))

def VTermRect.HasRow (rect : VTermRect) (row : ℤ) : Prop := rect.startRow ≤ row ∧ row < rect.endRow

instance (rect : VTermRect) (row : ℤ) : Decidable (rect.HasRow row) :=
  inferInstanceAs (Decidable (_ ∧ _))

def VTermRect.HasCell (rect : VTermRect) (row col : ℤ) : Prop :=
  rect.HasRow row ∧ rect.startCol ≤ col ∧ col < rect.endCol

instance (rect : VTermRect) (row col : ℤ) : Decidable (rect.HasCell row col) :=
  inferInstanceAs (Decidable (_ ∧ _))

/-- Scroll more than the area: erase the lot. -/
def VTermRect.ScrollsAway (rect : VTermRect) (downward rightward : ℤ) : Prop :=
  rect.endRow - rect.startRow ≤ downward.natAbs ∨ rect.endCol - rect.startCol ≤ rightward.natAbs

instance (rect : VTermRect) (downward rightward : ℤ) :
    Decidable (rect.ScrollsAway downward rightward) := inferInstanceAs (Decidable (_ ∨ _))

/-- Where the part of `rect` that is kept goes. -/
def VTermRect.scrollDest (rect : VTermRect) (downward rightward : ℤ) : VTermRect :=
  { startRow := if 0 ≤ downward then rect.startRow else rect.startRow + -downward
    endRow := if 0 ≤ downward then rect.endRow - downward else rect.endRow
    startCol := if 0 ≤ rightward then rect.startCol else rect.startCol + -rightward
    endCol := if 0 ≤ rightward then rect.endCol - rightward else rect.endCol }

/-- Where it comes from. -/
def VTermRect.scrollSrc (rect : VTermRect) (downward rightward : ℤ) : VTermRect :=
  { startRow := if 0 ≤ downward then rect.startRow + downward else rect.startRow
    endRow := if 0 ≤ downward then rect.endRow else rect.endRow - -downward
    startCol := if 0 ≤ rightward then rect.startCol + rightward else rect.startCol
    endCol := if 0 ≤ rightward then rect.endCol else rect.endCol - -rightward }

/-- What is erased behind it. -/
def VTermRect.scrollRest (rect : VTermRect) (downward rightward : ℤ) : VTermRect :=
  { startRow := if 0 < downward then rect.endRow - downward else rect.startRow
    endRow := if downward < 0 then rect.startRow - downward else rect.endRow
    startCol := if 0 < rightward then rect.endCol - rightward else rect.startCol
    endCol := if rightward < 0 then rect.startCol - rightward else rect.endCol }

/-- `vterm_scroll_rect` in terms of its two callbacks. -/
def vtermScrollRect {σ : Type*} (rect : VTermRect) (downward rightward : ℤ)
    (moverect : VTermRect → VTermRect → σ → σ) (eraserect : VTermRect → σ → σ) (s : σ) : σ :=
  if rect.ScrollsAway downward rightward then eraserect rect s
  else
    eraserect (rect.scrollRest downward rightward)
      (moverect (rect.scrollDest downward rightward) (rect.scrollSrc downward rightward) s)

theorem VTermRect.expand_hasRow {dst src : VTermRect} {row : ℤ}
    (h : dst.HasRow row ∨ src.HasRow row) : (dst.expand src).HasRow row := by
  simp only [VTermRect.HasRow, VTermRect.expand] at h ⊢
  omega

/-- Together the two parts of a scroll have the rows of the rectangle. -/
theorem VTermRect.scroll_hasRow {rect : VTermRect} {row : ℤ} (downward rightward : ℤ)
    (h : rect.HasRow row) :
    (rect.scrollDest downward rightward).HasRow row ∨
      (rect.scrollRest downward rightward).HasRow row := by
  simp only [VTermRect.HasRow, VTermRect.scrollDest, VTermRect.scrollRest] at h ⊢
  split <;> split <;> omega

/-- No part of a scroll has a row outside the rectangle. -/
theorem VTermRect.hasRow_of_scroll {rect : VTermRect} {downward rightward row : ℤ}
    (haway : ¬ rect.ScrollsAway downward rightward)
    (h : (rect.scrollDest downward rightward).HasRow row ∨
      (rect.scrollRest downward rightward).HasRow row) : rect.HasRow row := by
  simp only [VTermRect.ScrollsAway, VTermRect.HasRow, VTermRect.scrollDest,
    VTermRect.scrollRest] at haway h ⊢
  rcases h with h | h
  · split at h <;> omega
  · split at h <;> split at h <;> omega

end Jterm.Vterm
