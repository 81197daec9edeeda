import Jterm.Vterm.Scrollback
import Jterm.Vterm.Webvterm

/-!
The lines that leave at the top. `scroll_buffer_push` is called from the prescroll callback,
which moverect_internal calls for what the move overwrites; a scroll by the whole height does
not move anything.
-/
namespace Jterm.Vterm

open Runs

namespace VTermScreen

/-- The first `n` rows of the screen, as scroll_buffer_push gets them. -/
def firstRows (s : VTermScreen) (n : ℤ) : List Line :=
  (List.range n.toNat).map fun (row : ℕ) =>
    (List.range s.cols.toNat).map fun (col : ℕ) => s.getCell row col

/-- The test of screen_prescroll. -/
def AtTop (s : VTermScreen) (rect : VTermRect) : Prop :=
  rect.startRow = 0 ∧ rect.startCol = 0 ∧ rect.endCol = s.cols

instance (s : VTermScreen) (rect : VTermRect) : Decidable (s.AtTop rect) :=
  inferInstanceAs (Decidable (_ ∧ _))

def pushedFor (s : VTermScreen) (rect : VTermRect) : List Line :=
  if s.AtTop rect then s.firstRows rect.endRow else []

/-- Lines are scrolled off the top: upwards, from row 0, in the full width. -/
def ScrollsUp (s : VTermScreen) (rect : VTermRect) (downward rightward : ℤ) : Prop :=
  s.AtTop rect ∧ 1 ≤ downward ∧ rightward = 0

instance (s : VTermScreen) (rect : VTermRect) (downward rightward : ℤ) :
    Decidable (s.ScrollsUp rect downward rightward) := inferInstanceAs (Decidable (_ ∧ _))

/-- The lines that should reach the scrollback; the height of the region is its end row. -/
def scrolledOff (s : VTermScreen) (rect : VTermRect) (downward rightward : ℤ) : List Line :=
  if s.ScrollsUp rect downward rightward then s.firstRows (min downward rect.endRow) else []

theorem prescroll_eq (s : VTermScreen) (rect : VTermRect) :
    s.prescroll rect = { s with scrollPushes := s.scrollPushes ++ s.pushedFor rect } := by
  unfold prescroll pushedFor
  by_cases htop : s.AtTop rect
  · obtain ⟨hrow, hcol, hend⟩ := htop
    rw [if_neg (by omega), if_pos ⟨hrow, hcol, hend⟩]
    rfl
  · rw [if_neg htop, List.append_nil]
    unfold AtTop at htop
    rw [if_pos (by omega)]

/-- Every rectangle is tested and read before anything moves. -/
theorem foldl_prescroll (rects : List VTermRect) (s : VTermScreen) :
    rects.foldl prescroll s =
      { s with scrollPushes := s.scrollPushes ++ rects.flatMap s.pushedFor } := by
  induction rects generalizing s with
  | nil => simp
  | cons rect rest ih =>
    rw [List.foldl_cons, prescroll_eq, ih, List.flatMap_cons, ← List.append_assoc]
    rfl

/-! The other parts of a scroll push nothing. -/

@[simp] theorem scrollPushes_setBuffer (s : VTermScreen) (buffer : ℤ → ℤ → ScreenCell) :
    (s.setBuffer buffer).scrollPushes = s.scrollPushes := by
  unfold setBuffer
  split
  · rfl
  · rfl

@[simp] theorem scrollPushes_moveRow (s : VTermScreen) (row col srcRow srcCol n : ℤ) :
    (s.moveRow row col srcRow srcCol n).scrollPushes = s.scrollPushes := by
  unfold moveRow
  dsimp only
  split
  · exact scrollPushes_setBuffer s _
  · rfl

theorem scrollPushes_moverectInternal (dest src : VTermRect) (s : VTermScreen) :
    (moverectInternal dest src s).scrollPushes =
      s.scrollPushes ++ (prescrollRects dest src).flatMap s.pushedFor := by
  unfold moverectInternal
  rw [foldl_prescroll]
  refine invariant_of_step _ (fun t : VTermScreen => t.scrollPushes =
    s.scrollPushes ++ (prescrollRects dest src).flatMap s.pushedFor) ?_ _ rfl
  intro t row ht
  split
  · exact ht
  · rw [scrollPushes_moveRow]
    exact ht

theorem DamageOnly.scrollPushes {s t : VTermScreen} (h : s.DamageOnly t) :
    t.scrollPushes = s.scrollPushes := by
  rw [h]

/-- What a scroll pushes, before it moves the cells. -/
theorem scrollPushes_scrollrect (s : VTermScreen) (rect : VTermRect) (downward rightward : ℤ) :
    (s.scrollrect rect downward rightward).scrollPushes = s.scrollPushes ++
      if rect.ScrollsAway downward rightward then []
      else (prescrollRects (rect.scrollDest downward rightward)
        (rect.scrollSrc downward rightward)).flatMap s.pushedFor := by
  have hscroll : (vtermScrollRect rect downward rightward moverectInternal eraseInternal
      s).scrollPushes = s.scrollPushes ++
        if rect.ScrollsAway downward rightward then []
        else (prescrollRects (rect.scrollDest downward rightward)
          (rect.scrollSrc downward rightward)).flatMap s.pushedFor := by
    unfold vtermScrollRect
    split
    · rw [List.append_nil]
      exact scrollPushes_setBuffer s _
    · rw [← scrollPushes_moverectInternal]
      exact scrollPushes_setBuffer _ _
  rw [(damageOnly_scrollrect s rect downward rightward).scrollPushes, hscroll]

theorem firstRows_eq_nil {s : VTermScreen} {n : ℤ} : s.firstRows n = [] ↔ n ≤ 0 := by
  unfold firstRows
  rw [List.map_eq_nil_iff, List.range_eq_nil]
  omega

theorem pushedFor_eq_nil {s : VTermScreen} {rect : VTermRect} :
    s.pushedFor rect = [] ↔ ¬ (s.AtTop rect ∧ 0 < rect.endRow) := by
  unfold pushedFor
  split
  · rename_i htop
    rw [firstRows_eq_nil]
    constructor
    · rintro hend ⟨-, hpos⟩
      omega
    · intro hnot
      by_contra hpos
      exact hnot ⟨htop, by omega⟩
  · rename_i htop
    exact iff_of_true rfl fun h => htop h.1

/-- The move takes the rows at the top of the rectangle, or at its bottom when it goes down, and
the same for the columns. -/
theorem prescrollRects_scroll (rect : VTermRect) (downward rightward : ℤ) :
    prescrollRects (rect.scrollDest downward rightward) (rect.scrollSrc downward rightward) =
      (if downward = 0 then [] else
        [{ rect.scrollDest downward rightward with
            startRow := if 0 < downward then rect.startRow else rect.endRow + downward
            endRow := if 0 < downward then rect.startRow + downward else rect.endRow }]) ++
      if rightward = 0 then [] else
        [{ rect.scrollDest downward rightward with
            startCol := if 0 < rightward then rect.startCol else rect.endCol + rightward
            endCol := if 0 < rightward then rect.startCol + rightward else rect.endCol }] := by
  unfold prescrollRects
  congr 1
  · rcases Int.lt_trichotomy downward 0 with hneg | hzero | hpos
    · have hdest : (rect.scrollDest downward rightward).startRow = rect.startRow + -downward :=
        if_neg (by omega)
      have hdestEnd : (rect.scrollDest downward rightward).endRow = rect.endRow := if_neg (by omega)
      have hsrc : (rect.scrollSrc downward rightward).startRow = rect.startRow := if_neg (by omega)
      have hsrcEnd : (rect.scrollSrc downward rightward).endRow = rect.endRow - -downward :=
        if_neg (by omega)
      rw [hdest, hdestEnd, hsrc, hsrcEnd, if_neg (by omega), if_pos (by omega), if_neg (by omega),
        if_neg (by omega), if_neg (by omega), Int.sub_neg]
    · subst hzero
      simp [VTermRect.scrollDest, VTermRect.scrollSrc]
    · have hdest : (rect.scrollDest downward rightward).startRow = rect.startRow := if_pos (by omega)
      have hsrc : (rect.scrollSrc downward rightward).startRow = rect.startRow + downward :=
        if_pos (by omega)
      rw [hdest, hsrc, if_pos (by omega), if_neg (by omega), if_pos hpos, if_pos hpos]
  · rcases Int.lt_trichotomy rightward 0 with hneg | hzero | hpos
    · have hdest : (rect.scrollDest downward rightward).startCol = rect.startCol + -rightward :=
        if_neg (by omega)
      have hdestEnd : (rect.scrollDest downward rightward).endCol = rect.endCol := if_neg (by omega)
      have hsrc : (rect.scrollSrc downward rightward).startCol = rect.startCol := if_neg (by omega)
      have hsrcEnd : (rect.scrollSrc downward rightward).endCol = rect.endCol - -rightward :=
        if_neg (by omega)
      rw [hdest, hdestEnd, hsrc, hsrcEnd, if_neg (by omega), if_pos (by omega), if_neg (by omega),
        if_neg (by omega), if_neg (by omega), Int.sub_neg]
    · subst hzero
      simp [VTermRect.scrollDest, VTermRect.scrollSrc]
    · have hdest : (rect.scrollDest downward rightward).startCol = rect.startCol := if_pos (by omega)
      have hsrc : (rect.scrollSrc downward rightward).startCol = rect.startCol + rightward :=
        if_pos (by omega)
      rw [hdest, hsrc, if_pos (by omega), if_neg (by omega), if_pos hpos, if_pos hpos]

/-- The part of the move that screen_prescroll takes for lines leaving at the top although they do
not; its rectangle has a row or a column outside the screen. -/
def MistakenForTop (s : VTermScreen) (rect : VTermRect) (downward rightward : ℤ) : Prop :=
  let dest := rect.scrollDest downward rightward
  (downward ≠ 0 ∧ dest.startCol = 0 ∧ dest.endCol = s.cols ∧
    if 0 < downward then rect.startRow = 0 else rect.endRow + downward = 0) ∨
  (rightward ≠ 0 ∧ dest.startRow = 0 ∧
    if 0 < rightward then rect.startCol = 0 ∧ rightward = s.cols
    else rect.endCol + rightward = 0 ∧ rect.endCol = s.cols)

theorem inside_not_mistaken {s : VTermScreen} {rect : VTermRect} {downward rightward : ℤ}
    (hrows : 0 ≤ rect.startRow) (hcols : 0 ≤ rect.startCol ∧ rect.endCol ≤ s.cols)
    (hup : ¬ s.ScrollsUp rect downward rightward) (haway : ¬ rect.ScrollsAway downward rightward) :
    ¬ s.MistakenForTop rect downward rightward := by
  unfold ScrollsUp AtTop at hup
  unfold VTermRect.ScrollsAway at haway
  simp only [MistakenForTop, VTermRect.scrollDest]
  rintro (⟨hmoves, hstart, hend, htop⟩ | ⟨hmoves, hstart, hside⟩)
  · split at hstart <;> split at htop <;> omega
  · split at hstart <;> split at hside <;> omega

/-- The scrolls that push what they should. -/
def PushesAll (s : VTermScreen) (rect : VTermRect) (downward rightward : ℤ) : Prop :=
  if s.ScrollsUp rect downward rightward then
    ¬ rect.ScrollsAway downward rightward ∨ rect.endRow ≤ 0
  else rect.ScrollsAway downward rightward ∨ ¬ s.MistakenForTop rect downward rightward

/-- A scroll that is no scroll off the top pushes nothing if no part of it is taken for one. -/
theorem flatMap_pushedFor {s : VTermScreen} {rect : VTermRect} {downward rightward : ℤ}
    (haway : ¬ rect.ScrollsAway downward rightward) :
    (prescrollRects (rect.scrollDest downward rightward)
        (rect.scrollSrc downward rightward)).flatMap s.pushedFor = [] ↔
      ¬ s.MistakenForTop rect downward rightward := by
  unfold VTermRect.ScrollsAway at haway
  rw [prescrollRects_scroll, List.flatMap_append, List.append_eq_nil_iff, MistakenForTop, not_or]
  refine and_congr ?_ ?_
  · by_cases hzero : downward = 0
    · simp [hzero]
    · rw [if_neg hzero, List.flatMap_singleton, pushedFor_eq_nil]
      unfold AtTop
      dsimp only
      refine not_congr ⟨?_, ?_⟩
      · rintro ⟨⟨hrow, hcol, hend⟩, -⟩
        refine ⟨hzero, hcol, hend, ?_⟩
        by_cases hpos : 0 < downward
        · rw [if_pos hpos] at hrow ⊢
          exact hrow
        · rw [if_neg hpos] at hrow ⊢
          exact hrow
      · rintro ⟨-, hcol, hend, htop⟩
        by_cases hpos : 0 < downward
        · rw [if_pos hpos] at htop ⊢
          rw [if_pos hpos]
          exact ⟨⟨htop, hcol, hend⟩, by omega⟩
        · rw [if_neg hpos] at htop ⊢
          rw [if_neg hpos]
          exact ⟨⟨htop, hcol, hend⟩, by omega⟩
  · by_cases hzero : rightward = 0
    · simp [hzero]
    · rw [if_neg hzero, List.flatMap_singleton, pushedFor_eq_nil]
      unfold AtTop
      dsimp only
      have hheight : (rect.scrollDest downward rightward).startRow <
          (rect.scrollDest downward rightward).endRow := by
        unfold VTermRect.scrollDest
        dsimp only
        split <;> omega
      refine not_congr ⟨?_, ?_⟩
      · rintro ⟨⟨hrow, hcol, hend⟩, -⟩
        refine ⟨hzero, hrow, ?_⟩
        by_cases hpos : 0 < rightward
        · rw [if_pos hpos] at hcol hend ⊢
          exact ⟨hcol, by omega⟩
        · rw [if_neg hpos] at hcol hend ⊢
          exact ⟨hcol, hend⟩
      · rintro ⟨-, hrow, hside⟩
        by_cases hpos : 0 < rightward
        · rw [if_pos hpos] at hside ⊢
          rw [if_pos hpos]
          exact ⟨⟨hrow, hside.1, by omega⟩, by omega⟩
        · rw [if_neg hpos] at hside ⊢
          rw [if_neg hpos]
          exact ⟨⟨hrow, hside.1, hside.2⟩, by omega⟩

/-- Which scrolls push what they should: of those off the top the ones by less than the height. -/
theorem pushes_scrolledOff_iff (s : VTermScreen) (rect : VTermRect) (downward rightward : ℤ) :
    (s.scrollrect rect downward rightward).scrollPushes =
        s.scrollPushes ++ s.scrolledOff rect downward rightward ↔
      s.PushesAll rect downward rightward := by
  rw [scrollPushes_scrollrect, List.append_cancel_left_eq]
  unfold scrolledOff PushesAll
  by_cases hup : s.ScrollsUp rect downward rightward
  · rw [if_pos hup, if_pos hup]
    obtain ⟨⟨hrow, hcol, hend⟩, hdown, hright⟩ := hup
    by_cases haway : rect.ScrollsAway downward rightward
    · rw [if_pos haway, eq_comm, firstRows_eq_nil]
      simp only [haway, not_true, false_or]
      omega
    · have hless : downward < rect.endRow := by
        unfold VTermRect.ScrollsAway at haway
        omega
      have htop : s.AtTop { rect.scrollDest downward rightward with
          startRow := rect.startRow
          endRow := rect.startRow + downward } := by
        unfold AtTop VTermRect.scrollDest
        dsimp only
        rw [if_pos (by omega), if_pos (by omega)]
        omega
      rw [if_neg haway, prescrollRects_scroll, if_neg (by omega), if_pos hright, if_pos (by omega),
        if_pos (by omega), List.append_nil, List.flatMap_singleton, pushedFor, if_pos htop]
      dsimp only
      rw [hrow, Int.zero_add, Int.min_eq_left (by omega)]
      simp [haway]
  · rw [if_neg hup, if_neg hup]
    by_cases haway : rect.ScrollsAway downward rightward
    · simp [haway]
    · rw [if_neg haway, flatMap_pushedFor haway]
      simp [haway]

/-- Off the top by less than the height, or by no line that is taken for one at the top. -/
theorem pushed_of_pushesAll {s : VTermScreen} {rect : VTermRect} {downward rightward : ℤ}
    (h : s.PushesAll rect downward rightward) :
    (if rect.ScrollsAway downward rightward then []
      else (prescrollRects (rect.scrollDest downward rightward)
        (rect.scrollSrc downward rightward)).flatMap s.pushedFor) =
      s.scrolledOff rect downward rightward := by
  unfold PushesAll at h
  unfold scrolledOff
  by_cases haway : rect.ScrollsAway downward rightward
  · rw [if_pos haway]
    by_cases hup : s.ScrollsUp rect downward rightward
    · rw [if_pos hup] at h ⊢
      have hnone := h.resolve_left (not_not.mpr haway)
      exact (firstRows_eq_nil.mpr (by omega)).symm
    · rw [if_neg hup]
  · rw [if_neg haway]
    by_cases hup : s.ScrollsUp rect downward rightward
    · rw [if_pos hup, prescrollRects_scroll]
      obtain ⟨⟨hrow, hcol, hend⟩, hdown, hright⟩ := hup
      have hless : downward < rect.endRow := by
        unfold VTermRect.ScrollsAway at haway
        omega
      have htop : s.AtTop { rect.scrollDest downward rightward with
          startRow := rect.startRow
          endRow := rect.startRow + downward } := by
        unfold AtTop VTermRect.scrollDest
        dsimp only
        split_ifs <;> omega
      rw [if_neg (by omega), if_pos hright, if_pos (by omega), if_pos (by omega), List.append_nil,
        List.flatMap_singleton, pushedFor, if_pos htop, hrow, Int.zero_add,
        Int.min_eq_left (by omega)]
    · rw [if_neg hup] at h ⊢
      exact (flatMap_pushedFor haway).mpr (h.resolve_left haway)

/-- What a call of the screen should push, and when it does. -/
def callLines (s : VTermScreen) : ScreenCall → List Line
  | .scrollrect rect downward rightward => s.scrolledOff rect downward rightward
  | _ => []

def CallPushesAll (s : VTermScreen) : ScreenCall → Prop
  | .scrollrect rect downward rightward => s.PushesAll rect downward rightward
  | _ => True

theorem scrollPushes_exec {s : VTermScreen} {c : ScreenCall} (h : s.CallPushesAll c) :
    (s.exec c).scrollPushes = s.scrollPushes ++ s.callLines c := by
  cases c with
  | scrollrect rect downward rightward =>
    exact (scrollPushes_scrollrect s rect downward rightward).trans
      (congrArg (s.scrollPushes ++ ·) (pushed_of_pushesAll h))
  | putglyph chars width pos =>
    simp only [exec, putglyph, callLines, List.append_nil]
    split
    · exact (scrollPushes_setBuffer _ _).trans (scrollPushes_setBuffer s _)
    · rfl
  | erase rect =>
    simp only [callLines, List.append_nil]
    exact scrollPushes_setBuffer s _
  | settermprop prop =>
    simp only [exec, settermprop, callLines, List.append_nil]
    split
    · split_ifs
      · rfl
      · rfl
    · rfl
    · rfl
  | resize rows cols =>
    simp only [exec, resize, callLines, List.append_nil]
    split_ifs
    all_goals rfl
  | flushDamage => exact (damageOnly_flushDamage s).scrollPushes.trans (List.append_nil _).symm
  | movecursor | setpenattr | setmousefunc | bell => exact (List.append_nil _).symm

/-- The lines that leave at the top in a run, oldest first. -/
def leavingLines (s : VTermScreen) : List ScreenCall → List Line
  | [] => []
  | c :: cs => s.callLines c ++ leavingLines (s.exec c) cs

/-- Every line that leaves at the top is pushed once and in order. -/
theorem run_scrollPushes {s : VTermScreen} {cs : List ScreenCall}
    (hall : AllSteps exec CallPushesAll s cs) :
    (run exec s cs).scrollPushes = s.scrollPushes ++ s.leavingLines cs := by
  induction cs generalizing s with
  | nil => exact (List.append_nil _).symm
  | cons c cs ih =>
    obtain ⟨hfirst, hrest⟩ := hall
    have hpushed := ih hrest
    rw [scrollPushes_exec hfirst, List.append_assoc] at hpushed
    exact hpushed

end VTermScreen

/-- SU by the height of the screen is such a scroll, and pushes nothing. -/
theorem whole_height_pushes_nothing :
    let t := run vtermStep (webvtermInit 5 2 (fun _ => .blank .zero) [])
      [.recv [0x61, 0x0d, 0x0a, 0x62]]
    let s := t.display.screen
    ScreenCall.scrollrect ⟨0, 2, 0, 5⟩ 2 0 ∈ screenCalls t (.recv [0x1b, 0x5b, 0x32, 0x53]) ∧
      ¬ (s.scrollrect ⟨0, 2, 0, 5⟩ 2 0).scrollPushes =
        s.scrollPushes ++ s.scrolledOff ⟨0, 2, 0, 5⟩ 2 0 := by
  decide +kernel

end Jterm.Vterm
