import Jterm.Vterm.FlushDamage

/-!
Whether a flush has anything to report: what is recorded stays recorded until then, as long as no
rectangle starts in row -1.
-/
namespace Jterm.Vterm

open Runs

/-- A call that the state makes for bytes of the server. -/
def ScreenCall.OfState : ScreenCall → Prop
  | .flushDamage => False
  | .resize _ _ => False
  | _ => True

/-- A call that scrolls. -/
def ScreenCall.Scrolls : ScreenCall → Prop
  | .scrollrect _ _ _ => True
  | _ => False

instance : DecidablePred ScreenCall.Scrolls
  | .scrollrect _ _ _ => .isTrue trivial
  | .putglyph _ _ _ | .erase _ | .settermprop _ | .flushDamage | .resize _ _ | .movecursor _ _ _
  | .setpenattr _ | .setmousefunc _ | .bell => .isFalse id

def OfStateCalls (_ : ℤ) (cs : List ScreenCall) : Prop := ∀ c ∈ cs, c.OfState

instance : TextFamily OfStateCalls where
  nil _ := by simp [OfStateCalls]
  append hcs hds := fun c hc => (List.mem_append.mp hc).elim (hcs c) (hds c)
  simple {_ c} hc := by
    intro d hd
    rw [List.mem_singleton.mp hd]
    cases c with
    | flushDamage => exact hc
    | resize rows cols => exact hc
    | _ => trivial
  altscreen _ _ := by
    intro c hc
    rcases List.mem_pair.mp hc with rfl | rfl
    · trivial
    · trivial
  putglyph chars width pos := by
    intro c hc
    rw [List.mem_singleton.mp hc]
    trivial

namespace VTermScreen

/-- There is damage or a pending scroll. -/
def Recorded (s : VTermScreen) : Prop :=
  s.damaged.startRow ≠ -1 ∨ s.pendingScrollrect.startRow ≠ -1

/-- The call records something. -/
def Damages (s : VTermScreen) : ScreenCall → Prop
  | .putglyph _ _ pos => s.Inside pos.row pos.col
  | .scrollrect _ _ _ => True
  | .erase _ => True
  | .settermprop (.altscreen on) => on = false
  | .settermprop (.reverse _) => True
  | _ => False

instance (s : VTermScreen) : ∀ c, Decidable (s.Damages c)
  | .putglyph _ _ pos => inferInstanceAs (Decidable (s.Inside pos.row pos.col))
  | .scrollrect _ _ _ => .isTrue trivial
  | .erase _ => .isTrue trivial
  | .settermprop (.altscreen on) => inferInstanceAs (Decidable (on = false))
  | .settermprop (.reverse _) => .isTrue trivial
  | .settermprop (.cursorVisible _) | .settermprop (.cursorBlink _) | .settermprop (.cursorShape _)
  | .settermprop (.title _) | .settermprop (.iconname _) => .isFalse id
  | .movecursor _ _ _ | .setpenattr _ | .setmousefunc _ | .bell | .resize _ _ | .flushDamage =>
    .isFalse id

variable {s t : VTermScreen} {rect : VTermRect}

theorem recorded_damagerect (h : rect.startRow ≠ -1) :
    (s.damagerect rect).damaged.startRow ≠ -1 := by
  unfold damagerect
  dsimp only
  split
  · exact h
  · rename_i hsome
    unfold VTermRect.expand
    dsimp only
    omega

theorem Recorded.setBuffer (h : s.Recorded) (buffer : ℤ → ℤ → ScreenCell) :
    (s.setBuffer buffer).Recorded := by
  unfold VTermScreen.setBuffer
  split
  · exact h
  · exact h

theorem recorded_scrollrect (s : VTermScreen) (h : rect.startRow ≠ -1) (downward rightward : ℤ) :
    (s.scrollrect rect downward rightward).Recorded := by
  have hpending (t : VTermScreen) :
      (t.mergePending rect downward rightward).pendingScrollrect = rect := by
    unfold mergePending
    split_ifs
    · rfl
    · rfl
    · rfl
  right
  unfold VTermScreen.scrollrect
  dsimp only
  rw [(shiftDamage_keeps _ rect downward rightward).1, hpending]
  exact h

/-- What is recorded stays so, and what damages is recorded. -/
theorem exec_recorded {c : ScreenCall} (hstate : c.OfState) (hreports : s.Reports c)
    (h : s.Recorded ∨ s.Damages c) : (s.exec c).Recorded := by
  cases c with
  | putglyph chars width pos =>
    by_cases hin : s.Inside pos.row pos.col
    · have hrow : pos.row ≠ -1 := by
        have hpos := hin.1
        omega
      left
      simp only [exec, VTermScreen.putglyph, if_pos hin]
      exact recorded_damagerect hrow
    · have hsame : s.exec (.putglyph chars width pos) = s := if_neg hin
      rw [hsame]
      exact h.resolve_right hin
  | scrollrect rect downward rightward => exact recorded_scrollrect s hreports.1 downward rightward
  | erase rect => exact .inl (recorded_damagerect hreports)
  | settermprop prop =>
    have hscreen : ∀ t : VTermScreen, t.damagescreen.Recorded := fun t =>
      .inl (recorded_damagerect (show (0 : ℤ) ≠ -1 by decide))
    cases prop with
    | altscreen on =>
      cases on with
      | false => exact hscreen _
      | true => exact h.resolve_right fun hoff : true = false => Bool.noConfusion hoff
    | reverse on => exact hscreen _
    | _ => exact h.resolve_right id
  | flushDamage => exact absurd hstate id
  | resize rows cols => exact absurd hstate id
  | movecursor | setpenattr | setmousefunc | bell => exact h.resolve_right id

theorem damageLog_setBuffer (s : VTermScreen) (buffer : ℤ → ℤ → ScreenCell) :
    (s.setBuffer buffer).damageLog = s.damageLog := by
  unfold VTermScreen.setBuffer
  split
  · rfl
  · rfl

/-- A call that does not scroll reports nothing. -/
theorem exec_log {c : ScreenCall} (hstate : c.OfState) (hscroll : ¬ c.Scrolls) :
    (s.exec c).damageLog = s.damageLog := by
  cases c with
  | putglyph chars width pos =>
    simp only [exec, VTermScreen.putglyph]
    split
    · exact (damageLog_setBuffer _ _).trans (damageLog_setBuffer s _)
    · rfl
  | scrollrect rect downward rightward => exact absurd trivial hscroll
  | erase rect => exact damageLog_setBuffer s _
  | settermprop prop =>
    simp only [exec, VTermScreen.settermprop]
    split
    · split
      · rfl
      · rfl
    · rfl
    · rfl
  | flushDamage => exact absurd hstate id
  | resize rows cols => exact absurd hstate id
  | movecursor | setpenattr | setmousefunc | bell => rfl

/-- A flush of something reports it. -/
theorem flushDamage_reports (hfits : s.FlushFits) (h : s.Recorded) :
    s.flushDamage.damageLog ≠ s.damageLog := by
  have hdamaged : s.flushScroll.damaged.startRow ≠ -1 := by
    unfold flushScroll
    split
    · rename_i hpending
      change (vtermScrollRect s.pendingScrollrect s.pendingScrollDownward s.pendingScrollRightward
        moverectUser eraseUser s).damaged.startRow ≠ -1
      unfold vtermScrollRect
      split
      · exact recorded_damagerect hpending
      · rename_i haway
        exact recorded_damagerect (hfits hpending haway).2
    · rename_i hnone
      exact h.resolve_right hnone
  have hlog := (flushScroll_keeps s 0).2
  unfold VTermScreen.flushDamage
  dsimp only
  rw [if_pos hdamaged, hlog]
  simp

/-- Something recorded before a run of calls, or damaged in it, is recorded behind it. -/
theorem run_recorded {cs : List ScreenCall} (hstate : ∀ c ∈ cs, c.OfState)
    (hreports : AllSteps exec Reports s cs) (h : s.Recorded ∨ SomeStep exec Damages s cs) :
    (run exec s cs).Recorded := by
  induction cs generalizing s with
  | nil => exact h.resolve_right id
  | cons c cs ih =>
    obtain ⟨hfirst, hrest⟩ := hreports
    have hhere := hstate c List.mem_cons_self
    apply ih (fun d hd => hstate d (List.mem_cons_of_mem c hd)) hrest
    rcases h with hbefore | hdamages | hlater
    · exact .inl (exec_recorded hhere hfirst (.inl hbefore))
    · exact .inl (exec_recorded hhere hfirst (.inr hdamages))
    · exact .inr hlater

theorem run_log {cs : List ScreenCall} (hstate : ∀ c ∈ cs, c.OfState)
    (hscroll : ∀ c ∈ cs, ¬ c.Scrolls) :
    (run exec s cs).damageLog = s.damageLog := by
  induction cs generalizing s with
  | nil => rfl
  | cons c cs ih =>
    have hrest := ih (s := s.exec c) (fun d hd => hstate d (List.mem_cons_of_mem c hd))
      fun d hd => hscroll d (List.mem_cons_of_mem c hd)
    exact hrest.trans (exec_log (hstate c List.mem_cons_self) (hscroll c List.mem_cons_self))

end VTermScreen

end Jterm.Vterm
