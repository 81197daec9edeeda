import Jterm.Vterm.Damage

/-!
What the page is told of a run: between two flushes, every row that changes is given to
screen_damage and changes no more, as long as no rectangle starts in row -1.
-/
namespace Jterm.Vterm

open Runs VTermState

def VTermEvent.KeepsSize : VTermEvent → Prop
  | .resize _ _ => False
  | _ => True

/-- What the screen is asked to do in a run of events. -/
def eventCalls (t : VTerm) : List VTermEvent → List ScreenCall
  | [] => []
  | e :: es => screenCalls t e ++ eventCalls (vtermStep t e) es

theorem eventCalls_append (t : VTerm) (es fs : List VTermEvent) :
    eventCalls t (es ++ fs) = eventCalls t es ++ eventCalls (run vtermStep t es) fs := by
  induction es generalizing t with
  | nil => rfl
  | cons e es ih => simp [eventCalls, ih (vtermStep t e)]

theorem run_vtermStep_screen (t : VTerm) (es : List VTermEvent) :
    (run vtermStep t es).display.screen =
      run VTermScreen.exec t.display.screen (eventCalls t es) := by
  induction es generalizing t with
  | nil => rfl
  | cons e es ih =>
    have hfirst := vtermStep_screen t e
    simp only [eventCalls, run, List.foldl_cons, List.foldl_append] at ih hfirst ⊢
    rw [ih (vtermStep t e), hfirst]

/-- An event loses no rectangle. -/
def ReportsRows (t : VTerm) (e : VTermEvent) : Prop :=
  AllSteps VTermScreen.exec VTermScreen.Reports t.display.screen (screenCalls t e)

instance (t : VTerm) (e : VTermEvent) : Decidable (ReportsRows t e) :=
  inferInstanceAs (Decidable (AllSteps _ _ _ _))

theorem allSteps_eventCalls {t : VTerm} {es : List VTermEvent}
    (h : AllSteps vtermStep ReportsRows t es) :
    AllSteps VTermScreen.exec VTermScreen.Reports t.display.screen (eventCalls t es) := by
  induction es generalizing t with
  | nil => trivial
  | cons e es ih =>
    refine (allSteps_append _ _ _ _ _).mpr ⟨h.1, ?_⟩
    rw [← vtermStep_screen]
    exact ih h.2

/-! At a fixed size the calls are paid and the rows of state and screen agree. -/

theorem Paid.run_rows {rows : ℤ} {cs : List ScreenCall} (h : Paid rows cs) (s : VTermScreen) :
    (run VTermScreen.exec s cs).rows = s.rows := by
  induction h generalizing s with
  | nil => rfl
  | cons hc _ ih =>
    refine (ih _).trans (Prod.mk.inj (VTermScreen.size_exec ?_)).1
    rintro rows cols rfl
    exact hc
  | altscreen _ _ _ ih => exact (ih _).trans (Prod.mk.inj (VTermScreen.size_setBuffer _ _)).1

theorem paid_screenCalls {t : VTerm} {e : VTermEvent} (he : e.KeepsSize) :
    Paid t.display.state.rows (screenCalls t e) ∧
      (vtermStep t e).display.state.rows = t.display.state.rows := by
  cases e with
  | recv bytes =>
    obtain ⟨hpaid, hrows⟩ := asks_displayCalls (P := Paid) t.display (recvCalls t bytes)
    refine ⟨hpaid, ?_⟩
    change (webvtermRecv t bytes).display.state.rows = _
    rw [webvtermRecv_display]
    exact hrows
  | flush => exact ⟨.cons trivial .nil, rfl⟩
  | resize c r => exact absurd he id

theorem paid_eventCalls {t : VTerm} {es : List VTermEvent} (hes : ∀ e ∈ es, e.KeepsSize) :
    Paid t.display.state.rows (eventCalls t es) ∧
      (run vtermStep t es).display.state.rows = t.display.state.rows := by
  induction es generalizing t with
  | nil => exact ⟨.nil, rfl⟩
  | cons e es ih =>
    obtain ⟨hpaid, hrows⟩ := paid_screenCalls (hes e List.mem_cons_self)
    obtain ⟨hrest, hfinal⟩ := ih (t := vtermStep t e) fun f hf => hes f (List.mem_cons_of_mem e hf)
    rw [hrows] at hrest hfinal
    exact ⟨hpaid.append hrest, hfinal⟩

theorem webvtermInit_rows (cols rows : ℤ) (lowMemory : ℤ → ScreenCell) (stack : List ℕ) :
    (webvtermInit cols rows lowMemory stack).display.state.rows = rows ∧
      (webvtermInit cols rows lowMemory stack).display.screen.rows = rows := by
  obtain ⟨hpaid, hrows⟩ := asks_apply (d := ⟨.new rows cols stack, .new rows cols lowMemory⟩)
    (f := fun s => s.reset true) (emits_reset _ true)
  have hscreen := hpaid.run_rows (.new rows cols lowMemory)
  unfold webvtermInit
  dsimp only
  refine ⟨hrows, ?_⟩
  exact (Prod.mk.inj (VTermScreen.size_flushDamage _)).1.trans hscreen

/-- What a flush at the end of a run of calls leaves unreported did not change. -/
theorem VTermScreen.Settled.flush {s : VTermScreen} {cs : List ScreenCall} {row : ℤ}
    (h : s.Settled cs row) (hfits : (run exec s cs).FlushFits) :
    s.Keeps (cs ++ [.flushDamage]) row ∨ s.Reported (cs ++ [.flushDamage]) row := by
  have hsame : (run exec s cs).Keeps [.flushDamage] row := ⟨flushDamage_same _ row, trivial⟩
  rcases h with hkeeps | hreported | hcovered
  · exact .inl (hkeeps.append hsame)
  · exact .inr (hreported.append hsame)
  · refine .inr ⟨cs, .flushDamage, [], rfl, ?_, trivial⟩
    have hrun : run exec s (cs ++ [.flushDamage]) = (run exec s cs).flushDamage := by
      simp [run, List.foldl_append, exec]
    rw [hrun]
    exact flushDamage_delivers hfits hcovered

/-- After a flush, a row in which some cell differs from what it was before the events (at the
previous flush, or at any other point) has been reported since. -/
theorem flush_reports_rows (cols rows : ℤ) (lowMemory : ℤ → ScreenCell) (stack : List ℕ)
    {es : List VTermEvent} {chunks : List (List UInt8)} (hes : ∀ e ∈ es, e.KeepsSize) :
    let t := run vtermStep (webvtermInit cols rows lowMemory stack) es
    let fs := chunks.map VTermEvent.recv ++ [.flush]
    AllSteps vtermStep ReportsRows t fs → ∀ row col, 0 ≤ row → row < rows →
      (run vtermStep t fs).display.screen.shown row col ≠ t.display.screen.shown row col →
        t.display.screen.Reported (eventCalls t fs) row := by
  intro t fs hreports row col hlow hhigh hchanged
  obtain ⟨hstate, hscreen⟩ := webvtermInit_rows cols rows lowMemory stack
  obtain ⟨hpaid, hrows⟩ := paid_eventCalls (t := webvtermInit cols rows lowMemory stack) hes
  have htscreen : t.display.screen.rows = rows := by
    change (run vtermStep _ es).display.screen.rows = rows
    rw [run_vtermStep_screen, hpaid.run_rows, hscreen]
  have hrecv : ∀ e ∈ chunks.map VTermEvent.recv, e.KeepsSize := by
    intro e he
    obtain ⟨bytes, -, rfl⟩ := List.mem_map.mp he
    trivial
  have htpaid := (paid_eventCalls (t := t) hrecv).1
  rw [hrows, hstate] at htpaid
  obtain ⟨hchunks, hflush, -⟩ := (allSteps_append vtermStep _ _ _ _).mp hreports
  have hsettled : t.display.screen.Settled (eventCalls t (chunks.map .recv)) row :=
    VTermScreen.Settled.calls [] htpaid ⟨hlow, hhigh⟩ htscreen
      (allSteps_eventCalls hchunks) (.inl trivial)
  have hcalls : eventCalls t fs = eventCalls t (chunks.map .recv) ++ [.flushDamage] :=
    eventCalls_append t _ [.flush]
  have hfits : (run VTermScreen.exec t.display.screen
      (eventCalls t (chunks.map .recv))).FlushFits := by
    rw [← run_vtermStep_screen]
    exact hflush.1
  rw [hcalls]
  rcases hsettled.flush hfits with hkeeps | hreported
  · refine absurd (hkeeps.same col) ?_
    rw [← hcalls, ← run_vtermStep_screen]
    exact hchanged
  · exact hreported

/-- Two lines, a flush, and a scroll of the whole screen: row 0 is reported. -/
theorem flush_reports_rows_scrolled :
    let t := run vtermStep (webvtermInit 5 2 (fun _ => .blank .zero) [])
      [.recv [0x61, 0x0d, 0x0a, 0x62], .flush]
    t.display.screen.Reported (eventCalls t ([[0x1b, 0x5b], [0x53]].map .recv ++ [.flush])) 0 := by
  have hsize : ∀ e ∈ [VTermEvent.recv [0x61, 0x0d, 0x0a, 0x62], .flush], e.KeepsSize := by
    intro e he
    rcases List.mem_pair.mp he with rfl | rfl
    · trivial
    · trivial
  exact flush_reports_rows 5 2 (fun _ => .blank .zero) [] hsize (by decide) 0 0 (by decide)
    (by decide) (by decide)

/-- With a top margin of -1 the scroll of the whole screen is never reported. -/
theorem flush_loses_scroll :
    let t := run vtermStep (webvtermInit 5 2 (fun _ => .blank .zero) [])
      [.recv [0x61, 0x0d, 0x0a, 0x62], .flush]
    let u := run vtermStep t [.recv [0x1b, 0x5b, 0x30, 0x72, 0x1b, 0x5b, 0x53], .flush]
    u.display.screen.shown 0 0 ≠ t.display.screen.shown 0 0 ∧
      u.display.screen.damageLog = t.display.screen.damageLog := by
  decide

end Jterm.Vterm
