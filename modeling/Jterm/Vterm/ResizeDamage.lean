import Jterm.Vterm.OnScreen

/-!
Damage across resizes. The damaged rectangle and the pending scroll stay in the rows of the
screen at which they were recorded; a resize does not cut them, and its own damage for new
columns goes over the old rows.
-/
namespace Jterm.Vterm

open Runs

def VTermRect.RowsIn (rect : VTermRect) (rows : ℤ) : Prop :=
  0 ≤ rect.startRow ∧ rect.startRow ≤ rect.endRow ∧ rect.endRow ≤ rows

instance (rect : VTermRect) (rows : ℤ) : Decidable (rect.RowsIn rows) :=
  inferInstanceAs (Decidable (_ ∧ _))

theorem VTermRect.RowsIn.expand {a b : VTermRect} {rows : ℤ} (ha : a.RowsIn rows)
    (hb : b.RowsIn rows) : (a.expand b).RowsIn rows := by
  unfold RowsIn VTermRect.expand at *
  dsimp only
  omega

/-- Both parts of a scroll are within the rows of its rectangle. -/
theorem VTermRect.RowsIn.scroll {rect : VTermRect} {rows downward rightward : ℤ}
    (h : rect.RowsIn rows) (haway : ¬ rect.ScrollsAway downward rightward) :
    (rect.scrollDest downward rightward).RowsIn rows ∧
      (rect.scrollRest downward rightward).RowsIn rows := by
  unfold RowsIn at h
  unfold VTermRect.ScrollsAway at haway
  constructor
  · unfold RowsIn VTermRect.scrollDest
    dsimp only
    split <;> omega
  · unfold RowsIn VTermRect.scrollRest
    dsimp only
    split <;> split <;> omega

namespace VTermScreen

variable {s : VTermScreen}

/-- What is recorded of the damage names rows of the screen. -/
structure DamageInside (s : VTermScreen) : Prop where
  rows : 0 ≤ s.rows
  damaged : s.damaged.startRow ≠ -1 → s.damaged.RowsIn s.rows
  pending : s.pendingScrollrect.startRow ≠ -1 → s.pendingScrollrect.RowsIn s.rows

theorem DamageInside.damagerect (h : DamageInside s) {rect : VTermRect}
    (hrect : rect.RowsIn s.rows) : DamageInside (s.damagerect rect) := by
  refine ⟨h.rows, fun _ => ?_, h.pending⟩
  unfold VTermScreen.damagerect
  dsimp only
  split
  · exact hrect
  · rename_i hsome
    exact (h.damaged hsome).expand hrect

theorem DamageInside.flushScroll (h : DamageInside s) : DamageInside s.flushScroll := by
  unfold VTermScreen.flushScroll
  split
  · rename_i hpending
    have hrect := h.pending hpending
    have hscrolled : DamageInside (vtermScrollRect s.pendingScrollrect s.pendingScrollDownward
        s.pendingScrollRightward moverectUser eraseUser s) := by
      unfold vtermScrollRect
      split
      · exact h.damagerect hrect
      · rename_i haway
        obtain ⟨hdest, hrest⟩ := hrect.scroll haway
        exact (h.damagerect hdest).damagerect hrest
    exact ⟨hscrolled.rows, hscrolled.damaged, fun hsome => absurd rfl hsome⟩
  · exact h

/-- What a flush reports, and that it records nothing. -/
theorem DamageInside.flushDamage (h : DamageInside s) : DamageInside s.flushDamage ∧
    ∃ rects, s.flushDamage.damageLog = s.damageLog ++ rects ∧
      ∀ rect ∈ rects, rect.RowsIn s.flushDamage.rows := by
  have hlog : s.flushScroll.damageLog = s.damageLog := by
    unfold VTermScreen.flushScroll vtermScrollRect
    split
    · dsimp only
      split
      · rfl
      · rfl
    · rfl
  have hscrolled := h.flushScroll
  unfold VTermScreen.flushDamage
  dsimp only
  split
  · rename_i hdamaged
    refine ⟨⟨hscrolled.rows, fun hsome => absurd rfl hsome, hscrolled.pending⟩,
      [s.flushScroll.damaged], by rw [hlog], ?_⟩
    intro rect hrect
    rw [List.mem_singleton.mp hrect]
    exact hscrolled.damaged hdamaged
  · refine ⟨hscrolled, [], by rw [hlog, List.append_nil], ?_⟩
    intro rect hrect
    exact absurd hrect List.not_mem_nil

/-- The new size has the rows of what is recorded, and no row goes while columns come. -/
def ResizeKeeps (s : VTermScreen) (rows cols : ℤ) : Prop :=
  (s.damaged.startRow ≠ -1 → s.damaged.endRow ≤ rows) ∧
    (s.pendingScrollrect.startRow ≠ -1 → s.pendingScrollrect.endRow ≤ rows) ∧
    (s.cols < cols → s.rows ≤ rows)

instance (s : VTermScreen) (rows cols : ℤ) : Decidable (s.ResizeKeeps rows cols) :=
  inferInstanceAs (Decidable (_ ∧ _ ∧ _))

theorem DamageInside.resize (h : DamageInside s) {rows cols : ℤ} (hrows : 0 ≤ rows)
    (hkeeps : s.ResizeKeeps rows cols) :
    DamageInside (s.resize rows cols) ∧ (s.resize rows cols).damageLog = s.damageLog := by
  obtain ⟨hdamaged, hpending, hwider⟩ := hkeeps
  have hresized : DamageInside { s with
      buffer0 := s.reallocBuffer s.buffer0 rows cols
      buffer1 := s.reallocBuffer s.buffer1 rows cols
      rows := rows
      cols := cols } := by
    refine ⟨hrows, fun hsome => ?_, fun hsome => ?_⟩
    · obtain ⟨hstart, hend, -⟩ := h.damaged hsome
      exact ⟨hstart, hend, hdamaged hsome⟩
    · obtain ⟨hstart, hend, -⟩ := h.pending hsome
      exact ⟨hstart, hend, hpending hsome⟩
  have hcolumns (hmore : s.cols < cols) : (⟨0, s.rows, s.cols, cols⟩ : VTermRect).RowsIn rows :=
    ⟨Int.le_refl 0, h.rows, hwider hmore⟩
  have hlines (hmore : s.rows < rows) : (⟨s.rows, rows, 0, cols⟩ : VTermRect).RowsIn rows :=
    ⟨h.rows, Int.le_of_lt hmore, Int.le_refl rows⟩
  unfold VTermScreen.resize
  dsimp only
  by_cases hwide : s.cols < cols
  · rw [if_pos hwide]
    have hdamaged := hresized.damagerect (hcolumns hwide)
    split
    · rename_i hmore
      exact ⟨hdamaged.damagerect (hlines hmore), rfl⟩
    · exact ⟨hdamaged, rfl⟩
  · rw [if_neg hwide]
    split
    · rename_i hmore
      exact ⟨hresized.damagerect (hlines hmore), rfl⟩
    · exact ⟨hresized, rfl⟩

end VTermScreen

/-- A resize to at least one row and column that keeps the rows of what is recorded, or a flush. -/
def VTermEvent.KeepsDamage (t : VTerm) : VTermEvent → Prop
  | .recv _ => False
  | .flush => True
  | .resize c r => 1 ≤ c ∧ 1 ≤ r ∧ t.display.screen.ResizeKeeps r c

instance (t : VTerm) : ∀ e : VTermEvent, Decidable (e.KeepsDamage t)
  | .recv _ => .isFalse id
  | .flush => .isTrue trivial
  | .resize _ _ => inferInstanceAs (Decidable (_ ∧ _ ∧ _))

/-- Every rectangle given to screen_damage in an event names rows of the screen. -/
def ReportsInside (t : VTerm) (e : VTermEvent) : Prop :=
  ∃ rects, (vtermStep t e).display.screen.damageLog = t.display.screen.damageLog ++ rects ∧
    ∀ rect ∈ rects, rect.RowsIn (vtermStep t e).display.screen.rows

theorem resize_screen (t : VTerm) (c r : ℤ) :
    (vtermStep t (.resize c r)).display.screen = t.display.screen.resize r c := by
  rw [vtermStep_screen]
  rcases onResize_calls (s := { t.display.state with calls := [] }) rfl r c with
    hcalls | ⟨pos, oldpos, visible, hcalls⟩
  · rw [screenCalls, hcalls]
    rfl
  · rw [screenCalls, hcalls]
    rfl

theorem vtermStep_damageInside {t : VTerm} {e : VTermEvent} (h : t.display.screen.DamageInside)
    (hkeeps : e.KeepsDamage t) :
    (vtermStep t e).display.screen.DamageInside ∧ ReportsInside t e := by
  unfold ReportsInside
  cases e with
  | recv bytes => exact absurd hkeeps id
  | flush => exact h.flushDamage
  | resize c r =>
    obtain ⟨-, hr, hscreen⟩ := hkeeps
    rw [resize_screen]
    obtain ⟨hinside, hlog⟩ := h.resize (by omega) hscreen
    refine ⟨hinside, [], by rw [hlog, List.append_nil], ?_⟩
    intro rect hrect
    exact absurd hrect List.not_mem_nil

/-- When every resize keeps the rows of what is recorded at that moment, every flush of the run
reports rows of the screen as it is then. -/
theorem resizes_report_inside {t : VTerm} {es : List VTermEvent}
    (h : t.display.screen.DamageInside)
    (hall : AllSteps vtermStep (fun t e => e.KeepsDamage t) t es) :
    AllSteps vtermStep ReportsInside t es := by
  induction es generalizing t with
  | nil => trivial
  | cons e es ih =>
    obtain ⟨hfirst, hrest⟩ := hall
    obtain ⟨hnext, hreports⟩ := vtermStep_damageInside h hfirst
    exact ⟨hreports, ih hnext hrest⟩

/-- The second row is written, a row is added, and the screen goes back to two rows after a flush. -/
theorem resizes_report_inside_grown :
    let t := run vtermStep (webvtermInit 5 2 (fun _ => .blank .zero) [])
      [.recv [0x61, 0x0d, 0x0a, 0x62]]
    AllSteps vtermStep ReportsInside t [.resize 6 3, .flush, .resize 5 2, .flush] := by
  have hinside : (run vtermStep (webvtermInit 5 2 (fun _ => .blank .zero) [])
      [.recv [0x61, 0x0d, 0x0a, 0x62]]).display.screen.DamageInside :=
    ⟨by decide, by decide, by decide⟩
  exact resizes_report_inside hinside (by decide)

/-- The second row is written and goes away before the flush, which reports it all the same. -/
theorem resize_reports_outside :
    let t := run vtermStep (webvtermInit 5 2 (fun _ => .blank .zero) [])
      [.recv [0x61, 0x0d, 0x0a, 0x62]]
    t.display.screen.damaged = ⟨0, 2, 0, 1⟩ ∧ t.display.screen.pendingScrollrect.startRow = -1 ∧
      ¬ AllSteps vtermStep ReportsInside t [.resize 5 1, .flush] := by
  refine ⟨by decide, by decide, ?_⟩
  rintro ⟨-, ⟨rects, hlog, hinside⟩, -⟩
  have hreported : (run vtermStep (webvtermInit 5 2 (fun _ => .blank .zero) [])
      [.recv [0x61, 0x0d, 0x0a, 0x62], .resize 5 1, .flush]).display.screen.damageLog =
        (run vtermStep (webvtermInit 5 2 (fun _ => .blank .zero) [])
          [.recv [0x61, 0x0d, 0x0a, 0x62], .resize 5 1]).display.screen.damageLog ++
            [⟨0, 2, 0, 1⟩] := by
    decide
  have hrects := List.append_cancel_left (hlog.symm.trans hreported)
  rw [hrects] at hinside
  exact absurd (hinside _ (List.mem_singleton_self _)) (by decide)

end Jterm.Vterm
