import Jterm.Vterm.Emits

/-!
Damage: every row that changes is covered by the damaged rectangle or the pending scroll
until a flush delivers it. A start row of -1 stands for no rectangle, so that rectangles
that start there are lost.
-/
namespace Jterm.Vterm

open Runs

namespace VTermScreen

/-- A cell and the reverse flag that takes effect in it. -/
def shown (s : VTermScreen) (row col : ℤ) : ScreenCell × Bool :=
  (s.buffer row col, (s.buffer row col).pen.reverse ^^ s.globalReverse)

def SameRow (s t : VTermScreen) (row : ℤ) : Prop := ∀ col, t.shown row col = s.shown row col

/-- The damaged rectangle has the row. -/
def Marked (s : VTermScreen) (row : ℤ) : Prop := s.damaged.startRow ≠ -1 ∧ s.damaged.HasRow row

/-- A flush of the screen will report the row. -/
def Covered (s : VTermScreen) (row : ℤ) : Prop :=
  s.Marked row ∨ s.pendingScrollrect.startRow ≠ -1 ∧ s.pendingScrollrect.HasRow row

/-- From `s` to `t` a rectangle with the row is given to screen_damage. -/
def Delivers (s t : VTermScreen) (row : ℤ) : Prop :=
  ∃ rects, t.damageLog = s.damageLog ++ rects ∧ ∃ rect ∈ rects, rect.HasRow row

/-- The row is reported, still to be reported, or there is nothing to report. -/
def Accounted (s t : VTermScreen) (row : ℤ) : Prop :=
  s.Delivers t row ∨ t.Covered row ∨ (s.SameRow t row ∧ ¬ s.Covered row)

/-- The two parts of the pending scroll are rectangles. -/
def FlushFits (s : VTermScreen) : Prop :=
  s.pendingScrollrect.startRow ≠ -1 →
    ¬ s.pendingScrollrect.ScrollsAway s.pendingScrollDownward s.pendingScrollRightward →
      (s.pendingScrollrect.scrollDest s.pendingScrollDownward
        s.pendingScrollRightward).startRow ≠ -1 ∧
      (s.pendingScrollrect.scrollRest s.pendingScrollDownward
        s.pendingScrollRightward).startRow ≠ -1

instance (s : VTermScreen) : Decidable s.FlushFits :=
  inferInstanceAs (Decidable (_ → _ → _ ∧ _))

/-- The scroll is along the same axis, in the same rectangle, as the pending one. -/
def Merges (s : VTermScreen) (rect : VTermRect) (downward rightward : ℤ) : Prop :=
  s.pendingScrollrect = rect ∧
    ((s.pendingScrollDownward = 0 ∧ downward = 0) ∨
      (s.pendingScrollRightward = 0 ∧ rightward = 0))

instance (s : VTermScreen) (rect : VTermRect) (downward rightward : ℤ) :
    Decidable (s.Merges rect downward rightward) := inferInstanceAs (Decidable (_ ∧ _))

/-- The scroll flushes the damage. -/
def ScrollFlushes (s : VTermScreen) (rect : VTermRect) (downward rightward : ℤ) : Prop :=
  (s.damaged.startRow ≠ -1 ∧ ¬ rect.Intersects s.damaged) ∨
    (s.pendingScrollrect.startRow ≠ -1 ∧ ¬ s.Merges rect downward rightward)

instance (s : VTermScreen) (rect : VTermRect) (downward rightward : ℤ) :
    Decidable (s.ScrollFlushes rect downward rightward) := inferInstanceAs (Decidable (_ ∨ _))

/-- No rectangle is lost because it starts in row -1. -/
def Reports (s : VTermScreen) : ScreenCall → Prop
  | .erase rect => rect.startRow ≠ -1
  | .scrollrect rect downward rightward =>
    rect.startRow ≠ -1 ∧ (s.ScrollFlushes rect downward rightward → s.FlushFits)
  | .flushDamage => s.FlushFits
  | _ => True

instance (s : VTermScreen) : ∀ c, Decidable (s.Reports c)
  | .putglyph _ _ _ => .isTrue trivial
  | .movecursor _ _ _ => .isTrue trivial
  | .scrollrect _ _ _ => inferInstanceAs (Decidable (_ ∧ _))
  | .erase _ => inferInstanceAs (Decidable (_ ≠ _))
  | .setpenattr _ => .isTrue trivial
  | .settermprop _ => .isTrue trivial
  | .setmousefunc _ => .isTrue trivial
  | .bell => .isTrue trivial
  | .resize _ _ => .isTrue trivial
  | .flushDamage => inferInstanceAs (Decidable (FlushFits s))

theorem SameRow.refl (s : VTermScreen) (row : ℤ) : s.SameRow s row := fun _ => rfl

theorem SameRow.trans {s t u : VTermScreen} {row : ℤ} (hst : s.SameRow t row)
    (htu : t.SameRow u row) : s.SameRow u row := fun col => (htu col).trans (hst col)

theorem damagerect_marked {s : VTermScreen} {rect : VTermRect} {row : ℤ}
    (hrect : rect.startRow ≠ -1) (h : s.Marked row ∨ rect.HasRow row) :
    (s.damagerect rect).Marked row := by
  unfold Marked damagerect
  dsimp only
  split
  · rename_i hnone
    refine ⟨hrect, ?_⟩
    rcases h with hmarked | hrow
    · exact absurd hnone hmarked.1
    · exact hrow
  · rename_i hsome
    refine ⟨?_, VTermRect.expand_hasRow (h.imp_left And.right)⟩
    unfold VTermRect.expand
    dsimp only
    omega

/-! What changes cells only, and those in the rows of a rectangle. -/

structure CellsOnly (rect : VTermRect) (s t : VTermScreen) : Prop where
  damaged : t.damaged = s.damaged
  pending : t.pendingScrollrect = s.pendingScrollrect
  downward : t.pendingScrollDownward = s.pendingScrollDownward
  rightward : t.pendingScrollRightward = s.pendingScrollRightward
  log : t.damageLog = s.damageLog
  same : ∀ row, ¬ rect.HasRow row → s.SameRow t row

variable {rect : VTermRect} {s t u : VTermScreen} {row : ℤ}

theorem CellsOnly.refl (rect : VTermRect) (s : VTermScreen) : CellsOnly rect s s :=
  ⟨rfl, rfl, rfl, rfl, rfl, fun row _ => .refl s row⟩

theorem CellsOnly.trans (hst : CellsOnly rect s t) (htu : CellsOnly rect t u) :
    CellsOnly rect s u :=
  ⟨htu.damaged.trans hst.damaged, htu.pending.trans hst.pending,
    htu.downward.trans hst.downward, htu.rightward.trans hst.rightward, htu.log.trans hst.log,
    fun row hrow => (hst.same row hrow).trans (htu.same row hrow)⟩

theorem buffer_setBuffer (s : VTermScreen) (buffer : ℤ → ℤ → ScreenCell) :
    (s.setBuffer buffer).buffer = buffer := by
  unfold setBuffer VTermScreen.buffer
  split
  · simp
  · simp

theorem setBuffer_setBuffer (s : VTermScreen) (first second : ℤ → ℤ → ScreenCell) :
    (s.setBuffer first).setBuffer second = s.setBuffer second := by
  unfold setBuffer
  split
  · simp
  · simp

theorem cellsOnly_setBuffer {buffer : ℤ → ℤ → ScreenCell}
    (h : ∀ row col, ¬ rect.HasRow row → buffer row col = s.buffer row col) :
    CellsOnly rect s (s.setBuffer buffer) := by
  have hshown : ∀ row, ¬ rect.HasRow row → s.SameRow (s.setBuffer buffer) row := by
    intro row hrow col
    have hreverse : (s.setBuffer buffer).globalReverse = s.globalReverse := by
      unfold setBuffer
      split
      · rfl
      · rfl
    unfold shown
    rw [buffer_setBuffer, hreverse, h row col hrow]
  unfold setBuffer at hshown ⊢
  split at hshown
  · rename_i hfirst
    rw [if_pos hfirst]
    exact ⟨rfl, rfl, rfl, rfl, rfl, hshown⟩
  · rename_i hfirst
    rw [if_neg hfirst]
    exact ⟨rfl, rfl, rfl, rfl, rfl, hshown⟩

theorem cellsOnly_moveRow (row col srcRow srcCol n : ℤ) (hrow : rect.HasRow row) :
    CellsOnly rect s (s.moveRow row col srcRow srcCol n) := by
  unfold moveRow
  dsimp only
  split
  · apply cellsOnly_setBuffer
    intro r c hr
    rw [if_neg]
    rintro ⟨rfl, -⟩
    exact hr hrow
  · exact ⟨rfl, rfl, rfl, rfl, rfl, fun row _ col => rfl⟩

theorem cellsOnly_prescroll (pushed : VTermRect) : CellsOnly rect s (s.prescroll pushed) := by
  unfold prescroll
  split
  · exact .refl rect s
  · exact ⟨rfl, rfl, rfl, rfl, rfl, fun row _ col => rfl⟩

theorem cellsOnly_eraseInternal (s : VTermScreen) (part : VTermRect)
    (hpart : ∀ row, part.HasRow row → rect.HasRow row) : CellsOnly rect s (eraseInternal part s) := by
  apply cellsOnly_setBuffer
  intro row col hrow
  dsimp only
  rw [if_neg]
  rintro ⟨⟨hhas, -⟩, -⟩
  exact hrow (hpart row hhas)

theorem cellsOnly_moverectInternal (s : VTermScreen) (dest src : VTermRect)
    (hdest : ∀ row, dest.HasRow row → rect.HasRow row) :
    CellsOnly rect s (moverectInternal dest src s) := by
  unfold moverectInternal
  refine List.foldlRecOn _ _ (List.foldlRecOn _ _ (.refl rect s) ?_) ?_
  · intro t ht pushed _
    exact ht.trans (cellsOnly_prescroll pushed)
  · intro t ht row hrow
    split
    · exact ht
    · exact ht.trans (cellsOnly_moveRow _ _ _ _ _ (hdest row (mem_moveRows hrow)))

/-- A scroll moves and erases in the rows of its rectangle only. -/
theorem cellsOnly_scroll (s : VTermScreen) (rect : VTermRect) (downward rightward : ℤ) :
    CellsOnly rect s (vtermScrollRect rect downward rightward moverectInternal eraseInternal s) := by
  unfold vtermScrollRect
  split
  · exact cellsOnly_eraseInternal s rect fun row hrow => hrow
  · rename_i haway
    refine (cellsOnly_moverectInternal s _ _ ?_).trans (cellsOnly_eraseInternal _ _ ?_)
    · exact fun row hrow => VTermRect.hasRow_of_scroll haway (.inl hrow)
    · exact fun row hrow => VTermRect.hasRow_of_scroll haway (.inr hrow)

/-! A flush delivers all that is covered, and changes no cell. -/

theorem flushScroll_marked (hfits : s.FlushFits) (h : s.Covered row) :
    s.flushScroll.Marked row := by
  unfold flushScroll
  split
  · rename_i hpending
    have hrow : s.Marked row ∨ s.pendingScrollrect.HasRow row := h.imp_right And.right
    change (vtermScrollRect s.pendingScrollrect s.pendingScrollDownward s.pendingScrollRightward
      moverectUser eraseUser s).Marked row
    unfold vtermScrollRect
    split
    · exact damagerect_marked hpending hrow
    · rename_i haway
      obtain ⟨hdest, hrest⟩ := hfits hpending haway
      apply damagerect_marked hrest
      rcases hrow with hmarked | hhas
      · exact .inl (damagerect_marked hdest (.inl hmarked))
      · rcases VTermRect.scroll_hasRow s.pendingScrollDownward s.pendingScrollRightward hhas with
          hpart | hpart
        · exact .inl (damagerect_marked hdest (.inr hpart))
        · exact .inr hpart
  · rename_i hnone
    rcases h with hmarked | hpending
    · exact hmarked
    · exact absurd hpending.1 hnone

/-- What a flush of the pending scroll leaves as it is. -/
theorem flushScroll_keeps (s : VTermScreen) (row : ℤ) :
    s.SameRow s.flushScroll row ∧ s.flushScroll.damageLog = s.damageLog := by
  unfold flushScroll vtermScrollRect
  split
  · split
    · exact ⟨fun col => rfl, rfl⟩
    · exact ⟨fun col => rfl, rfl⟩
  · exact ⟨.refl s row, rfl⟩

theorem flushDamage_same (s : VTermScreen) (row : ℤ) : s.SameRow s.flushDamage row := by
  have hkeeps := (flushScroll_keeps s row).1
  unfold flushDamage
  dsimp only
  split
  · exact hkeeps
  · exact hkeeps

theorem flushDamage_log (s : VTermScreen) : ∃ rects, s.flushDamage.damageLog = s.damageLog ++ rects := by
  have hlog := (flushScroll_keeps s 0).2
  unfold flushDamage
  dsimp only
  split
  · exact ⟨[s.flushScroll.damaged], by rw [hlog]⟩
  · exact ⟨[], by rw [hlog, List.append_nil]⟩

theorem flushDamage_delivers (hfits : s.FlushFits) (h : s.Covered row) :
    s.Delivers s.flushDamage row := by
  obtain ⟨hsome, hrow⟩ := flushScroll_marked hfits h
  have hlog := (flushScroll_keeps s row).2
  unfold flushDamage
  dsimp only
  rw [if_pos hsome]
  exact ⟨[s.flushScroll.damaged], by rw [hlog], _, List.mem_singleton_self _, hrow⟩

theorem Delivers.log (h : s.Delivers t row) (hlog : ∃ rects, u.damageLog = t.damageLog ++ rects) :
    s.Delivers u row := by
  obtain ⟨rects, hrects, rect, hmem, hrow⟩ := h
  obtain ⟨more, hmore⟩ := hlog
  refine ⟨rects ++ more, ?_, rect, List.mem_append_left more hmem, hrow⟩
  rw [hmore, hrects, List.append_assoc]

/-! One call of the state. -/

theorem accounted_of_same (hsame : s.SameRow t row) (hcovered : s.Covered row → t.Covered row) :
    s.Accounted t row := by
  by_cases h : s.Covered row
  · exact .inr (.inl (hcovered h))
  · exact .inr (.inr ⟨hsame, h⟩)

/-- Cells change, then the rectangle of the change is damaged. -/
theorem CellsOnly.accounted (hcells : CellsOnly rect s t) (hrect : rect.startRow ≠ -1) :
    s.Accounted (t.damagerect rect) row := by
  have hmarked : s.Marked row → t.Marked row := by
    intro h
    unfold Marked
    rw [hcells.damaged]
    exact h
  by_cases hrow : rect.HasRow row
  · exact .inr (.inl (.inl (damagerect_marked hrect (.inr hrow))))
  · apply accounted_of_same
    · intro col
      exact hcells.same row hrow col
    · rintro (h | h)
      · exact .inl (damagerect_marked hrect (.inl (hmarked h)))
      · rw [← hcells.pending] at h
        exact .inr h

theorem putglyph_accounted (s : VTermScreen) (chars : List ℕ) (width : ℤ) (pos : VTermPos) :
    s.Accounted (s.putglyph chars width pos) row := by
  unfold putglyph
  split
  · rename_i hinside
    have hstart : pos.row ≠ -1 := by
      have := hinside.1
      omega
    have hwrite : CellsOnly ⟨pos.row, pos.row + 1, pos.col, pos.col + width⟩ s
        (s.writeGlyph chars pos) := by
      apply cellsOnly_setBuffer
      intro r c hr
      dsimp only
      rw [if_neg]
      rintro ⟨rfl, -⟩
      exact hr ⟨Int.le_refl _, Int.lt_succ _⟩
    refine (hwrite.trans ?_).accounted hstart
    apply cellsOnly_setBuffer
    intro r c hr
    dsimp only
    rw [if_neg]
    rintro ⟨rfl, -⟩
    exact hr ⟨Int.le_refl _, Int.lt_succ _⟩
  · exact accounted_of_same (.refl s row) id

theorem erase_accounted (s : VTermScreen) (hrect : rect.startRow ≠ -1) :
    s.Accounted (s.erase rect) row :=
  (cellsOnly_eraseInternal s rect fun _ hrow => hrow).accounted hrect

/-- Damage of the whole screen. -/
theorem damagescreen_covered (h : 0 ≤ row ∧ row < s.rows) : s.damagescreen.Covered row :=
  .inl (damagerect_marked (by simp) (.inr h))

/-- Rows outside the rectangle stay marked when damage moves with the scroll. -/
theorem shiftDamage_marked (rect : VTermRect) (downward rightward : ℤ) (hrow : ¬ rect.HasRow row)
    (h : s.Marked row) : (s.shiftDamage rect downward rightward).Marked row := by
  unfold shiftDamage
  rw [if_neg]
  · exact h
  · rintro ⟨-, hcontains⟩
    obtain ⟨hstart, -, hend, -⟩ := hcontains
    have hhas := h.2
    unfold VTermRect.HasRow at hhas hrow
    omega

theorem shiftDamage_keeps (s : VTermScreen) (rect : VTermRect) (downward rightward : ℤ) :
    (s.shiftDamage rect downward rightward).pendingScrollrect = s.pendingScrollrect ∧
      (s.shiftDamage rect downward rightward).damageLog = s.damageLog ∧
      ∀ row, s.SameRow (s.shiftDamage rect downward rightward) row := by
  unfold shiftDamage
  split
  · exact ⟨rfl, rfl, fun row col => rfl⟩
  · exact ⟨rfl, rfl, fun row col => rfl⟩

/-- Nothing, or a flush that loses no rectangle. -/
inductive MayFlush (s : VTermScreen) : VTermScreen → Prop
  | keep : MayFlush s s
  | flush : s.FlushFits → MayFlush s s.flushDamage

theorem MayFlush.same (h : s.MayFlush t) (row : ℤ) : s.SameRow t row := by
  cases h with
  | keep => exact .refl s row
  | flush => exact flushDamage_same s row

theorem MayFlush.log (h : s.MayFlush t) : ∃ rects, t.damageLog = s.damageLog ++ rects := by
  cases h with
  | keep => exact ⟨[], (List.append_nil _).symm⟩
  | flush => exact flushDamage_log s

/-- The pending scroll is none, or the same as the new one, or flushed. -/
theorem mergePending_spec (row : ℤ) (s : VTermScreen) (rect : VTermRect)
    (downward rightward : ℤ)
    (hfits : s.pendingScrollrect.startRow ≠ -1 → ¬ s.Merges rect downward rightward →
      s.FlushFits) :
    ∃ t, s.MayFlush t ∧ (s.Covered row → s.Delivers t row ∨ rect.HasRow row ∨ t.Marked row) ∧
      (s.mergePending rect downward rightward).damaged = t.damaged ∧
      (s.mergePending rect downward rightward).pendingScrollrect = rect ∧
      (s.mergePending rect downward rightward).damageLog = t.damageLog ∧
      t.SameRow (s.mergePending rect downward rightward) row := by
  unfold mergePending
  split
  · rename_i hnone
    refine ⟨s, .keep, ?_, rfl, rfl, rfl, fun col => rfl⟩
    rintro (hmarked | hpending)
    · exact .inr (.inr hmarked)
    · exact absurd hnone hpending.1
  · rename_i hsome
    split
    · rename_i hmerges
      refine ⟨s, .keep, ?_, rfl, rfl, rfl, fun col => rfl⟩
      rintro (hmarked | hpending)
      · exact .inr (.inr hmarked)
      · rw [hmerges.1] at hpending
        exact .inr (.inl hpending.2)
    · rename_i hmerges
      have hflush : s.FlushFits := hfits hsome hmerges
      exact ⟨s.flushDamage, .flush hflush, fun h => .inl (flushDamage_delivers hflush h), rfl, rfl,
        rfl, fun col => rfl⟩

/-- The middle of scrollrect: damage elsewhere is flushed. -/
theorem flushOutside_spec (row : ℤ) (s : VTermScreen) (rect : VTermRect)
    (hfits : s.damaged.startRow ≠ -1 ∧ ¬ rect.Intersects s.damaged → s.FlushFits) :
    let t := if s.damaged.startRow ≠ -1 ∧ ¬ rect.Intersects s.damaged then s.flushDamage else s
    s.MayFlush t ∧ (s.Covered row → s.Delivers t row ∨ t = s) := by
  dsimp only
  split
  · rename_i houtside
    exact ⟨.flush (hfits houtside), fun h => .inl (flushDamage_delivers (hfits houtside) h)⟩
  · exact ⟨.keep, fun _ => .inr rfl⟩

theorem flushFits_flushDamage (s : VTermScreen) : s.flushDamage.FlushFits := by
  have hscroll : s.flushScroll.pendingScrollrect.startRow = -1 := by
    unfold flushScroll
    split
    · rfl
    · rename_i hnone
      exact not_not.mp hnone
  have hnone : s.flushDamage.pendingScrollrect.startRow = -1 := by
    unfold flushDamage
    dsimp only
    split
    · exact hscroll
    · exact hscroll
  exact fun hpending => absurd hnone hpending

theorem scrollrect_accounted (s : VTermScreen) (rect : VTermRect) (downward rightward : ℤ)
    (hrect : rect.startRow ≠ -1) (hflush : s.ScrollFlushes rect downward rightward → s.FlushFits) :
    s.Accounted (s.scrollrect rect downward rightward) row := by
  have hcells := cellsOnly_scroll s rect downward rightward
  unfold scrollrect
  generalize vtermScrollRect rect downward rightward moverectInternal eraseInternal s = t at hcells ⊢
  have hfits : t.ScrollFlushes rect downward rightward → t.FlushFits := by
    unfold ScrollFlushes FlushFits Merges
    rw [hcells.damaged, hcells.pending, hcells.downward, hcells.rightward]
    exact hflush
  obtain ⟨hfirst, houtside⟩ := flushOutside_spec row t rect fun h => hfits (.inl h)
  dsimp only at hfirst houtside ⊢
  generalize (if t.damaged.startRow ≠ -1 ∧ ¬ rect.Intersects t.damaged then t.flushDamage else t) =
    u at hfirst houtside ⊢
  have hfits' : u.pendingScrollrect.startRow ≠ -1 → ¬ u.Merges rect downward rightward →
      u.FlushFits := by
    intro hpending hmerges
    cases hfirst with
    | keep => exact hfits (.inr ⟨hpending, hmerges⟩)
    | flush => exact flushFits_flushDamage t
  obtain ⟨v, hsecond, hmerged, hdamaged, hpending, hlog, hsame⟩ :=
    mergePending_spec row u rect downward rightward hfits'
  obtain ⟨hpending', hlog', hsame'⟩ :=
    shiftDamage_keeps (u.mergePending rect downward rightward) rect downward rightward
  by_cases hrow : rect.HasRow row
  · refine .inr (.inl (.inr ?_))
    rw [hpending', hpending]
    exact ⟨hrect, hrow⟩
  by_cases hcovered : s.Covered row
  · have htcovered : t.Covered row := by
      unfold Covered Marked at hcovered ⊢
      rw [hcells.damaged, hcells.pending]
      exact hcovered
    have hend : ∃ rects, ((u.mergePending rect downward rightward).shiftDamage rect downward
        rightward).damageLog = v.damageLog ++ rects := ⟨[], by simp [hlog', hlog]⟩
    have hlast := hsecond.log
    unfold Accounted Delivers
    rw [← hcells.log]
    rcases houtside htcovered with hfound | rfl
    · exact .inl ((hfound.log hlast).log hend)
    · rcases hmerged htcovered with hfound | hhas | hmarked
      · exact .inl (hfound.log hend)
      · exact absurd hhas hrow
      · refine .inr (.inl (.inl (shiftDamage_marked rect downward rightward hrow ?_)))
        unfold Marked
        rw [hdamaged]
        exact hmarked
  · refine .inr (.inr ⟨?_, hcovered⟩)
    exact (((((hcells.same row hrow).trans (hfirst.same row)).trans (hsecond.same row)).trans
      hsame).trans (hsame' row))

theorem exec_accounted {s : VTermScreen} {c : ScreenCall} (hc : c.Plain)
    (hrow : 0 ≤ row ∧ row < s.rows) (hreports : s.Reports c) : s.Accounted (s.exec c) row := by
  cases c with
  | putglyph chars width pos => exact putglyph_accounted s chars width pos
  | scrollrect rect downward rightward =>
    exact scrollrect_accounted s rect downward rightward hreports.1 hreports.2
  | erase rect => exact erase_accounted s hreports
  | settermprop prop =>
    cases prop with
    | altscreen on =>
      cases on with
      | false => exact .inr (.inl (damagescreen_covered (s := { s with onBuffer1 := false }) hrow))
      | true => exact absurd hc id
    | reverse on =>
      exact .inr (.inl (damagescreen_covered (s := { s with globalReverse := on }) hrow))
    | _ => exact accounted_of_same (.refl s row) id
  | resize rows cols => exact absurd hc id
  | flushDamage =>
    by_cases h : s.Covered row
    · exact .inl (flushDamage_delivers hreports h)
    · exact .inr (.inr ⟨flushDamage_same s row, h⟩)
  | movecursor pos oldpos visible => exact accounted_of_same (.refl s row) id
  | setpenattr attr => exact accounted_of_same (fun col => rfl) id
  | setmousefunc on => exact accounted_of_same (.refl s row) id
  | bell => exact accounted_of_same (.refl s row) id

/-- The erase behind a switch to the alternate screen covers every row. -/
theorem exec_altscreen_covered (s : VTermScreen) (hstart : rect.startRow = 0)
    (hrow : 0 ≤ row ∧ row < rect.endRow) :
    ((s.exec (.settermprop (.altscreen true))).exec (.erase rect)).Covered row := by
  refine .inl (damagerect_marked (by omega) (.inr ⟨?_, hrow.2⟩))
  rw [hstart]
  exact hrow.1

/-! Runs of calls. -/

/-- The row changes in no call. -/
def Keeps (s : VTermScreen) (cs : List ScreenCall) (row : ℤ) : Prop :=
  AllSteps exec (fun t c => t.SameRow (t.exec c) row) s cs

/-- A call of the run gives the row to screen_damage, and it does not change from then on. -/
def Reported (s : VTermScreen) (cs : List ScreenCall) (row : ℤ) : Prop :=
  ∃ before c after, cs = before ++ c :: after ∧
    (run exec s before).Delivers (run exec s (before ++ [c])) row ∧
    (run exec s (before ++ [c])).Keeps after row

def Settled (s : VTermScreen) (cs : List ScreenCall) (row : ℤ) : Prop :=
  s.Keeps cs row ∨ s.Reported cs row ∨ (run exec s cs).Covered row

theorem Keeps.same {cs : List ScreenCall} (h : s.Keeps cs row) : s.SameRow (run exec s cs) row := by
  have hstep : ∀ t c, s.SameRow t row → t.SameRow (t.exec c) row → s.SameRow (t.exec c) row :=
    fun t c ht hc => ht.trans hc
  exact invariant_run exec hstep (SameRow.refl s row) h

theorem Keeps.append {cs ds : List ScreenCall} (hcs : s.Keeps cs row)
    (hds : (run exec s cs).Keeps ds row) : s.Keeps (cs ++ ds) row :=
  (allSteps_append exec _ s cs ds).mpr ⟨hcs, hds⟩

theorem Reported.append {cs ds : List ScreenCall} (hcs : s.Reported cs row)
    (hds : (run exec s cs).Keeps ds row) : s.Reported (cs ++ ds) row := by
  obtain ⟨before, c, after, rfl, hdelivers, hkeeps⟩ := hcs
  refine ⟨before, c, after ++ ds, by simp, hdelivers, hkeeps.append ?_⟩
  have hrun : run exec s (before ++ c :: after) = run exec (run exec s (before ++ [c])) after := by
    simp [run, List.foldl_append]
  rwa [hrun] at hds

/-- The step of the run: a row that is accounted for stays so. -/
theorem Settled.step {cs : List ScreenCall} {c : ScreenCall} (h : s.Settled cs row)
    (hstep : (run exec s cs).Accounted ((run exec s cs).exec c) row) : s.Settled (cs ++ [c]) row := by
  have hrun : run exec s (cs ++ [c]) = (run exec s cs).exec c := by simp [run, List.foldl_append]
  rcases hstep with hdelivers | hcovered | ⟨hsame, hnot⟩
  · refine .inr (.inl ⟨cs, c, [], rfl, ?_, trivial⟩)
    rw [hrun]
    exact hdelivers
  · refine .inr (.inr ?_)
    rw [hrun]
    exact hcovered
  · rcases h with hkeeps | hreported | hcovered
    · exact .inl (hkeeps.append ⟨hsame, trivial⟩)
    · exact .inr (.inl (hreported.append ⟨hsame, trivial⟩))
    · exact absurd hcovered hnot

theorem Settled.calls {s : VTermScreen} {cs : List ScreenCall} {rows : ℤ} (done : List ScreenCall)
    (hpaid : Paid rows cs) (hrow : 0 ≤ row ∧ row < rows) (hrows : (run exec s done).rows = rows)
    (hreports : AllSteps exec Reports (run exec s done) cs) (h : s.Settled done row) :
    s.Settled (done ++ cs) row := by
  induction hpaid generalizing done with
  | nil =>
    rw [List.append_nil]
    exact h
  | @cons c cs hc hcs ih =>
    have hrun : run exec s (done ++ [c]) = (run exec s done).exec c := by
      simp [run, List.foldl_append]
    have hsize : (run exec s (done ++ [c])).rows = rows := by
      rw [hrun, ← hrows]
      refine (Prod.mk.inj (size_exec ?_)).1
      rintro rows cols rfl
      exact hc
    have hstep := exec_accounted hc (by rw [hrows]; exact hrow) hreports.1
    have hnext := ih _ hsize (by rw [hrun]; exact hreports.2) (h.step hstep)
    rw [List.append_assoc] at hnext
    exact hnext
  | @altscreen rect cs hstart hend hcs ih =>
    have hrun : run exec s (done ++ [.settermprop (.altscreen true), .erase rect]) =
        ((run exec s done).exec (.settermprop (.altscreen true))).exec (.erase rect) := by
      simp [run, List.foldl_append]
    have hsize : (run exec s (done ++ [.settermprop (.altscreen true), .erase rect])).rows = rows := by
      rw [hrun, ← hrows]
      exact (Prod.mk.inj (size_setBuffer _ _)).1
    have hcovered : s.Settled (done ++ [.settermprop (.altscreen true), .erase rect]) row := by
      refine .inr (.inr ?_)
      rw [hrun]
      exact exec_altscreen_covered _ hstart (by rw [hend]; exact hrow)
    have hnext := ih _ hsize (by rw [hrun]; exact hreports.2.2) hcovered
    rw [List.append_assoc] at hnext
    exact hnext

end VTermScreen

end Jterm.Vterm
