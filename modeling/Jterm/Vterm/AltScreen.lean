import Jterm.Vterm.Agree
import Jterm.Vterm.CellBuffers

/-!
Full-screen programs. Mode 1049 saves the cursor and the pen and shows the alternate screen;
resetting it brings back the main screen as it was, whatever was drawn in between.
-/
namespace Jterm.Vterm

open Runs

/-- `CSI ? 1049 h` and `CSI ? 1049 l` -/
def enterAltScreen : List UInt8 := [0x1b, 0x5b, 0x3f, 0x31, 0x30, 0x34, 0x39, 0x68]
def leaveAltScreen : List UInt8 := [0x1b, 0x5b, 0x3f, 0x31, 0x30, 0x34, 0x39, 0x6c]

/-- The call does not leave the alternate screen. -/
def ScreenCall.StaysAlt : ScreenCall → Prop
  | .settermprop (.altscreen false) => False
  | .resize _ _ => False
  | _ => True

/-- A call that no buffer is looked at for. -/
def ScreenCall.Cellless : ScreenCall → Prop
  | .settermprop (.cursorVisible _) | .settermprop (.cursorBlink _)
  | .settermprop (.cursorShape _) => True
  | .setpenattr _ | .movecursor _ _ _ => True
  | _ => False

namespace VTermScreen

/-- The alternate screen is shown in front of `main`. -/
def AltOver (main : ℤ → ℤ → ScreenCell) (s : VTermScreen) : Prop :=
  s.onBuffer1 = true ∧ s.buffer0 = main

variable {main : ℤ → ℤ → ScreenCell} {s : VTermScreen}

theorem AltOver.setBuffer (h : s.AltOver main) (buffer : ℤ → ℤ → ScreenCell) :
    (s.setBuffer buffer).AltOver main := by
  unfold VTermScreen.setBuffer
  rw [if_pos h.1]
  exact h

theorem AltOver.moverectInternal (h : s.AltOver main) (dest src : VTermRect) :
    (moverectInternal dest src s).AltOver main := by
  have hpushed : ((prescrollRects dest src).foldl prescroll s).AltOver main := by
    refine invariant_of_step prescroll (AltOver main) ?_ _ h
    intro t rect ht
    unfold prescroll
    split
    · exact ht
    · exact ht
  refine invariant_of_step _ (AltOver main) ?_ _ hpushed
  intro t row ht
  split
  · exact ht
  · unfold moveRow
    dsimp only
    split
    · exact ht.setBuffer _
    · exact ht

theorem AltOver.damageOnly {t : VTermScreen} (h : s.AltOver main) (hdamage : s.DamageOnly t) :
    t.AltOver main := by
  rw [hdamage]
  exact h

/-- What is drawn goes to the alternate screen. -/
theorem AltOver.exec (h : s.AltOver main) {c : ScreenCall} (hc : c.StaysAlt) :
    (s.exec c).AltOver main := by
  cases c with
  | putglyph chars width pos =>
    change (s.putglyph chars width pos).AltOver main
    unfold VTermScreen.putglyph
    split
    · exact (h.setBuffer _).setBuffer _
    · exact h
  | scrollrect rect downward rightward =>
    refine AltOver.damageOnly ?_ (damageOnly_scrollrect s rect downward rightward)
    unfold vtermScrollRect
    split
    · exact h.setBuffer _
    · exact (h.moverectInternal _ _).setBuffer _
  | erase rect => exact h.setBuffer _
  | settermprop prop =>
    cases prop with
    | altscreen on =>
      cases on with
      | false => exact hc.elim
      | true => exact ⟨rfl, h.2⟩
    | _ => exact h
  | resize rows cols => exact hc.elim
  | flushDamage => exact h.damageOnly (damageOnly_flushDamage s)
  | movecursor | setpenattr | setmousefunc | bell => exact h

theorem AltOver.run (h : s.AltOver main) {cs : List ScreenCall} (hcs : ∀ c ∈ cs, c.StaysAlt) :
    (run VTermScreen.exec s cs).AltOver main := by
  induction cs generalizing s with
  | nil => exact h
  | cons c cs ih =>
    exact ih (h.exec (hcs c List.mem_cons_self)) fun d hd => hcs d (List.mem_cons_of_mem c hd)

theorem run_cellless (s : VTermScreen) {cs : List ScreenCall} (hcs : ∀ c ∈ cs, c.Cellless) :
    (Runs.run VTermScreen.exec s cs).onBuffer1 = s.onBuffer1 ∧
      (Runs.run VTermScreen.exec s cs).buffer = s.buffer := by
  induction cs generalizing s with
  | nil => exact ⟨rfl, rfl⟩
  | cons c cs ih =>
    have hsame : (s.exec c).onBuffer1 = s.onBuffer1 ∧ (s.exec c).buffer = s.buffer := by
      have hc := hcs c List.mem_cons_self
      cases c with
      | settermprop prop =>
        cases prop with
        | cursorVisible | cursorBlink | cursorShape => exact ⟨rfl, rfl⟩
        | _ => exact hc.elim
      | setpenattr | movecursor => exact ⟨rfl, rfl⟩
      | _ => exact hc.elim
    obtain ⟨hon, hbuffer⟩ := ih (s.exec c) fun d hd => hcs d (List.mem_cons_of_mem c hd)
    exact ⟨hon.trans hsame.1, hbuffer.trans hsame.2⟩

end VTermScreen

namespace VTermState

/-- What is saved with the cursor, and the size it was saved at. -/
def saved (s : VTermState) : (VTermPos × SavedMode × VTermPen) × ℤ × ℤ :=
  ((s.savedPos, s.savedMode, s.pens.saved), s.rows, s.cols)

def HoldsTo (saved : (VTermPos × SavedMode × VTermPen) × ℤ × ℤ) (calls : List ScreenCall)
    (saved' : (VTermPos × SavedMode × VTermPen) × ℤ × ℤ) (calls' : List ScreenCall) : Prop :=
  saved' = saved ∧ ∃ cs, calls' = calls ++ cs ∧ ∀ c ∈ cs, c.StaysAlt

/-- From `s` to `t` what is saved stays, and so does the alternate screen. -/
def Holds (s t : VTermState) : Prop := HoldsTo s.saved s.calls t.saved t.calls

variable {s t u : VTermState}

theorem Holds.refl (s : VTermState) : Holds s s := ⟨rfl, [], (List.append_nil _).symm, by simp⟩

theorem Holds.trans (hst : Holds s t) (htu : Holds t u) : Holds s u := by
  obtain ⟨hsaved, cs, hcs, hfirst⟩ := hst
  obtain ⟨hsaved', ds, hds, hsecond⟩ := htu
  refine ⟨hsaved'.trans hsaved, cs ++ ds, ?_, ?_⟩
  · rw [hds, hcs, List.append_assoc]
  · exact fun c hc => (List.mem_append.mp hc).elim (hfirst c) (hsecond c)

theorem Quietly.holds (h : Quietly s t) : Holds s t := by
  obtain ⟨hkept, cs, hcs, hquiet⟩ := h
  unfold kept at hkept
  simp only [Prod.mk.injEq] at hkept
  obtain ⟨hpens, -, ⟨hrows, hcols⟩, hpos, hmode⟩ := hkept
  refine ⟨?_, cs, hcs, ?_⟩
  · unfold saved
    rw [hpens, hrows, hcols, hpos, hmode]
  · intro c hc
    have hquiet := hquiet c hc
    cases c with
    | settermprop prop =>
      cases prop with
      | altscreen on => exact hquiet.elim
      | _ => trivial
    | resize rows cols => exact hquiet.elim
    | _ => trivial

theorem Holds.call {c : ScreenCall} (h : Holds s t) (hc : c.StaysAlt) : Holds s (t.call c) :=
  h.trans ⟨rfl, [c], rfl, by simpa using hc⟩

theorem Holds.withPens (h : Holds s t) {f : Pens → Pens} (hf : ∀ p, (f p).saved = p.saved) :
    Holds s (t.withPens f) := by
  refine h.trans ⟨?_, _, rfl, ?_⟩
  · unfold saved VTermState.withPens
    dsimp only
    rw [hf]
  · intro c hc
    obtain ⟨attr, -, rfl⟩ := List.mem_map.mp hc
    trivial

theorem saved_savepen (p : Pens) : (p.savepen false).saved = p.saved := rfl

theorem saved_setpen (p : Pens) (args stack : List ℕ) : (p.setpen args stack).saved = p.saved :=
  Pens.kept_setpen (P := fun q : Pens => q.saved = p.saved) (fun _ _ h => h) (fun _ _ h => h) rfl
    args stack

theorem saved_resetpen (p : Pens) : p.resetpen.saved = p.saved := rfl

/-- The cursor is restored, and may be so again. -/
theorem Holds.restorecursor (h : Holds s t) : Holds s (t.savecursor false) := by
  have hrestored : Holds s { t with
      pos := t.savedPos
      mode := { t.mode with
        cursorVisible := t.savedMode.cursorVisible
        cursorBlink := t.savedMode.cursorBlink
        cursorShape := t.savedMode.cursorShape } } := h
  have hprops := ((hrestored.call (c := .settermprop (.cursorVisible t.savedMode.cursorVisible))
    trivial).call (c := .settermprop (.cursorBlink t.savedMode.cursorBlink)) trivial).call
      (c := .settermprop (.cursorShape t.savedMode.cursorShape)) trivial
  exact (hprops.withPens saved_savepen).trans ((Quietly.refl _).updatecursor t.pos true).holds

theorem holds_reset (s : VTermState) (hard : Bool) : Holds s (s.reset hard) := by
  have hfresh : Holds s { s with
      scrollregionStart := 0
      scrollregionEnd := -1
      mode :=
        { keypad := false, cursor := false, autowrap := true, insert := false, newline := false,
          cursorVisible := true, cursorBlink := true, cursorShape := 1, altScreen := false,
          origin := false }
      tabstops := (List.range s.cols.toNat).map fun col => col % 8 = 0 } := .refl s
  have hprops := (((hfresh.withPens saved_resetpen).call (c := .settermprop (.cursorVisible true))
    trivial).call (c := .settermprop (.cursorBlink true)) trivial).call
      (c := .settermprop (.cursorShape 1)) trivial
  unfold VTermState.reset
  dsimp only
  split
  · refine Holds.call ?_ trivial
    exact hprops
  · exact hprops

/-- The escape sequence that saves the cursor. -/
def EscapeOverwrites : List UInt8 → Prop
  | 0x37 :: _ => True
  | _ => False

instance : DecidablePred EscapeOverwrites := fun str => by
  unfold EscapeOverwrites
  split
  · exact .isTrue trivial
  · exact .isFalse id

theorem holds_onEscape (s : VTermState) {bytes : List UInt8} (h : ¬ EscapeOverwrites bytes) :
    Holds s (s.onEscape bytes) := by
  by_cases hsaves : EscapeSaves bytes
  · unfold EscapeSaves at hsaves
    split at hsaves
    · exact absurd trivial h
    · exact (Holds.refl s).restorecursor
    · exact (holds_reset s true).call trivial
    · exact hsaves.elim
  · exact (quietly_onEscape s hsaves).holds

/-- The control functions that save the cursor or show the main screen. -/
def CsiOverwrites (args : List ℕ) : CsiFunction → Prop
  | .save => True
  | .decSm => csiArg (args.getD 0 0) = 1048 ∨ csiArg (args.getD 0 0) = 1049
  | .decRm => csiArg (args.getD 0 0) = 1047 ∨ csiArg (args.getD 0 0) = 1049
  | _ => False

instance (args : List ℕ) : DecidablePred (CsiOverwrites args)
  | .save => .isTrue trivial
  | .decSm | .decRm => inferInstanceAs (Decidable (_ ∨ _))
  | .ich | .cuu | .cud | .cuf | .cub | .cnl | .cpl | .cha | .cup | .cht | .ed | .el | .il | .dl
  | .dch | .su | .sd | .ech | .cbt | .hpa | .hpr | .da | .daSecondary | .vpa | .vpr | .hvp | .tbc
  | .sm | .hpb | .vpb | .rm | .sgr | .dsr | .decstr | .decscusr | .decstbm | .restore => .isFalse id

theorem holds_altscreen (s : VTermState) : Holds s (s.altscreen true) := by
  have hswitched : Holds s { s.settermprop (.altscreen true) with
      mode := { s.mode with altScreen := true } } :=
    (Holds.refl s).call (c := .settermprop (.altscreen true)) trivial
  exact hswitched.call trivial

theorem holds_csiCase {args : List ℕ} {f : CsiFunction} (hf : ¬ CsiOverwrites args f)
    (ht : s.csiCase args f = some t) : Holds s t := by
  by_cases hsaves : CsiSaves args f
  · cases f
    case sgr =>
      rw [← Option.some.inj ht]
      exact (Holds.refl s).withPens fun p => saved_setpen p args s.stack
    case decstr =>
      rw [← Option.some.inj ht]
      exact holds_reset s false
    case save => exact absurd trivial hf
    case restore =>
      rw [← Option.some.inj ht]
      exact (Holds.refl s).restorecursor
    case decSm =>
      rw [← Option.some.inj ht]
      split
      · exact .refl s
      · rcases hsaves with hnum | hnum | hnum
        · rw [hnum]
          exact holds_altscreen s
        · exact absurd (.inl hnum) hf
        · exact absurd (.inr hnum) hf
    case decRm =>
      rw [← Option.some.inj ht]
      split
      · exact .refl s
      · rcases hsaves with hnum | hnum | hnum
        · exact absurd (.inl hnum) hf
        · rw [hnum]
          exact (Holds.refl s).restorecursor
        · exact absurd (.inr hnum) hf
    all_goals exact hsaves.elim
  · exact (quietly_csiCase hsaves ht).holds

def SequenceOverwrites (csi : CsiSequence) : Prop :=
  match csi.function with
  | none => False
  | some f => CsiOverwrites csi.args f

instance : DecidablePred SequenceOverwrites := fun csi => by
  unfold SequenceOverwrites
  split
  · exact .isFalse id
  · infer_instance

/-- A callback that saves the cursor anew or shows the main screen. -/
def Overwrites : ParserCall → Prop
  | .escape str => EscapeOverwrites str
  | .csi str command => SequenceOverwrites (parseCsi str command)
  | _ => False

instance : DecidablePred Overwrites
  | .escape str => inferInstanceAs (Decidable (EscapeOverwrites str))
  | .csi str command => inferInstanceAs (Decidable (SequenceOverwrites (parseCsi str command)))
  | .text _ | .control _ | .osc _ | .dcs _ => .isFalse id

theorem holds_onCsi (s : VTermState) {csi : CsiSequence} (h : ¬ SequenceOverwrites csi) :
    Holds s (s.onCsi csi) := by
  unfold VTermState.onCsi
  split
  · exact .refl s
  · rename_i t ht
    obtain ⟨f, hf, hcase⟩ := Option.bind_eq_some_iff.mp ht
    unfold SequenceOverwrites at h
    rw [hf] at h
    have ht : Holds s t := holds_csiCase h hcase
    have hclamped : Holds s t.clampCursor := ht
    exact hclamped.trans ((Quietly.refl _).updatecursor s.pos true).holds

theorem holds_stateCall (s : VTermState) {c : ParserCall} (h : ¬ Overwrites c) :
    Holds s (s.stateCall c) := by
  cases c with
  | text bytes => exact (quietly_onText s bytes).holds
  | control c => exact (quietly_onControl s c).holds
  | escape str => exact holds_onEscape s h
  | csi str command => exact holds_onCsi s h
  | osc str => exact (quietly_onOsc s str).holds
  | dcs str => exact .refl s

end VTermState

open VTermState

/-- In front of the alternate screen: the cursor and the pen of `s` are saved, at its size, and
`main` is the main screen. -/
structure InAlt (s : VTermState) (main : ℤ → ℤ → ScreenCell) (d : Display) : Prop where
  saved : d.state.saved = ((s.pos, ⟨s.mode.cursorVisible, s.mode.cursorBlink, s.mode.cursorShape⟩,
    s.pens.pen), s.rows, s.cols)
  screen : d.screen.AltOver main

variable {s : VTermState} {main : ℤ → ℤ → ScreenCell}

theorem InAlt.call {d : Display} (h : InAlt s main d) {c : ParserCall} (hc : ¬ Overwrites c) :
    InAlt s main (d.call c) := by
  obtain ⟨hsaved, cs, hcs, hstay⟩ := holds_stateCall { d.state with calls := [] } hc
  refine ⟨hsaved.trans h.saved, ?_⟩
  have hcalls : ({ d.state with calls := [] }.stateCall c).calls = cs := hcs
  change (run VTermScreen.exec d.screen ({ d.state with calls := [] }.stateCall c).calls).AltOver main
  rw [hcalls]
  exact h.screen.run hstay

/-- An event that neither resizes, nor saves the cursor anew, nor shows the main screen. -/
def KeepsAlt (t : VTerm) (e : VTermEvent) : Prop :=
  e.KeepsSize ∧ ∀ c ∈ parserCallsOf t e, ¬ Overwrites c

instance (t : VTerm) : ∀ e, Decidable (KeepsAlt t e)
  | .recv bytes =>
    decidable_of_iff (∀ c ∈ recvCalls t bytes, ¬ Overwrites c)
      ⟨fun h => ⟨trivial, h⟩, fun h => h.2⟩
  | .flush => .isTrue ⟨trivial, by simp [parserCallsOf]⟩
  | .resize _ _ => .isFalse fun h => h.1

theorem InAlt.vtermStep {t : VTerm} (h : InAlt s main t.display) {e : VTermEvent}
    (he : KeepsAlt t e) : InAlt s main (vtermStep t e).display := by
  cases e with
  | recv bytes =>
    change InAlt s main (webvtermRecv t bytes).display
    have hcalls : ∀ c ∈ recvCalls t bytes, ¬ Overwrites c := he.2
    rw [webvtermRecv_display]
    generalize recvCalls t bytes = cs at hcalls
    generalize t.display = d at h
    induction cs generalizing d with
    | nil => exact h
    | cons c cs ih =>
      exact ih (fun c' hc' => hcalls c' (List.mem_cons_of_mem c hc')) (d.call c)
        (h.call (hcalls c List.mem_cons_self))
  | flush => exact ⟨h.saved, h.screen.damageOnly (VTermScreen.damageOnly_flushDamage _)⟩
  | resize c r => exact he.1.elim

theorem recvCalls_enterAltScreen {t : VTerm} (h : t.parser = ⟨.normal, []⟩) :
    recvCalls t enterAltScreen = [.csi [0x3f, 0x31, 0x30, 0x34, 0x39] 0x68] := by
  unfold recvCalls
  rw [h]
  rfl

theorem recvCalls_leaveAltScreen {t : VTerm} (h : t.parser = ⟨.normal, []⟩) :
    recvCalls t leaveAltScreen = [.csi [0x3f, 0x31, 0x30, 0x34, 0x39] 0x6c] := by
  unfold recvCalls
  rw [h]
  rfl

/-- What DECSET 1049 makes of the state, in front of the clamping of the cursor. -/
theorem onCsi_enter (s : VTermState) :
    s.stateCall (.csi [0x3f, 0x31, 0x30, 0x34, 0x39] 0x68) =
      ((s.altscreen true).savecursor true).clampCursor.updatecursor s.pos true := rfl

theorem onCsi_leave (s : VTermState) :
    s.stateCall (.csi [0x3f, 0x31, 0x30, 0x34, 0x39] 0x6c) =
      ((s.altscreen false).savecursor false).clampCursor.updatecursor s.pos true := rfl

theorem inAlt_enter {d : Display} (hmain : d.screen.onBuffer1 = false) :
    InAlt d.state d.screen.buffer (d.call (.csi [0x3f, 0x31, 0x30, 0x34, 0x39] 0x68)) := by
  unfold Display.call Display.apply
  dsimp only
  rw [onCsi_enter]
  have hscreen : d.screen.buffer = d.screen.buffer0 := by
    unfold VTermScreen.buffer
    rw [hmain]
    rfl
  have hswitched : (run VTermScreen.exec d.screen (((({ d.state with calls := [] }).altscreen
      true).savecursor true).clampCursor.calls)).AltOver d.screen.buffer := by
    have hon : (d.screen.settermprop (.altscreen true)).AltOver d.screen.buffer := ⟨rfl, hscreen.symm⟩
    exact hon.exec (c := .erase d.state.screenRect) trivial
  obtain ⟨hsaved, cs, hcs, hstay⟩ := ((Quietly.refl
    ((({ d.state with calls := [] }).altscreen true).savecursor true).clampCursor).updatecursor
      d.state.pos true).holds
  refine ⟨?_, ?_⟩
  · exact hsaved
  · dsimp only
    rw [hcs, run_append]
    exact hswitched.run hstay

/-- What restoring the cursor asks for behind the switch of the screen. -/
theorem savecursor_cellless (s : VTermState) (oldpos : VTermPos) :
    ∃ cs, ((s.savecursor false).clampCursor.updatecursor oldpos true).calls = s.calls ++ cs ∧
      ∀ c ∈ cs, c.Cellless := by
  have hupdate : ∀ t : VTermState, ∀ pos, (∃ cs, t.calls = s.calls ++ cs ∧ ∀ c ∈ cs, c.Cellless) →
      ∃ cs, (t.updatecursor pos true).calls = s.calls ++ cs ∧ ∀ c ∈ cs, c.Cellless := by
    intro t pos h
    obtain ⟨cs, hcs, hcells⟩ := h
    unfold VTermState.updatecursor
    split
    · exact ⟨cs, hcs, hcells⟩
    · refine ⟨cs ++ [.movecursor t.pos pos t.mode.cursorVisible], ?_, ?_⟩
      · rw [← List.append_assoc, ← hcs]
        rfl
      · intro c hc
        rcases List.mem_append.mp hc with hold | hnew
        · exact hcells c hold
        · rw [List.mem_singleton.mp hnew]
          trivial
  apply hupdate
  apply hupdate
  refine ⟨[.settermprop (.cursorVisible s.savedMode.cursorVisible),
    .settermprop (.cursorBlink s.savedMode.cursorBlink),
    .settermprop (.cursorShape s.savedMode.cursorShape)] ++ s.pens.saved.attrs.map .setpenattr,
    ?_, ?_⟩
  · change (((s.calls ++ [_]) ++ [_]) ++ [_]) ++ _ = _
    simp only [List.append_assoc]
    rfl
  · intro c hc
    rcases List.mem_append.mp hc with hprop | hattr
    · simp only [List.mem_cons, List.not_mem_nil, or_false] at hprop
      rcases hprop with rfl | rfl | rfl
      all_goals trivial
    · obtain ⟨attr, -, rfl⟩ := List.mem_map.mp hattr
      trivial

/-- The cursor is on the screen when it is restored. -/
theorem clampCursor_inside {s : VTermState} (hin : s.PosInside) (horigin : s.mode.origin = false) :
    s.clampCursor.pos = s.pos := by
  unfold PosInside at hin
  unfold clampCursor
  rw [horigin]
  have hrow : min (max s.pos.row 0) (s.rows - 1) = s.pos.row := by omega
  have hcol : min (max s.pos.col 0) (s.cols - 1) = s.pos.col := by omega
  simp only [Bool.false_eq_true, if_false, hrow, hcol]

/-- The cursor as it is, and what shows it. -/
def VTermState.cursor (s : VTermState) : VTermPos × SavedMode × VTermPen :=
  (s.pos, ⟨s.mode.cursorVisible, s.mode.cursorBlink, s.mode.cursorShape⟩, s.pens.pen)

theorem cursor_restored {s : VTermState} (oldpos : VTermPos) (horigin : s.mode.origin = false)
    (hin : 0 ≤ s.savedPos.row ∧ s.savedPos.row < s.rows ∧ 0 ≤ s.savedPos.col ∧
      s.savedPos.col < s.cols) :
    ((s.savecursor false).clampCursor.updatecursor oldpos true).cursor =
      (s.savedPos, s.savedMode, s.pens.saved) := by
  have hupdate : ∀ (t : VTermState) pos, (t.updatecursor pos true).cursor = t.cursor ∧
      (t.updatecursor pos true).mode.origin = t.mode.origin ∧
      ((t.updatecursor pos true).rows, (t.updatecursor pos true).cols) = (t.rows, t.cols) := by
    intro t pos
    unfold VTermState.updatecursor
    split
    · exact ⟨rfl, rfl, rfl⟩
    · exact ⟨rfl, rfl, rfl⟩
  have hrestored : (s.savecursor false).cursor = (s.savedPos, s.savedMode, s.pens.saved) :=
    (hupdate _ s.pos).1
  have hpos : (s.savecursor false).pos = s.savedPos := congrArg Prod.fst hrestored
  have hsize : ((s.savecursor false).rows, (s.savecursor false).cols) = (s.rows, s.cols) :=
    (hupdate _ s.pos).2.2
  obtain ⟨hrows, hcols⟩ := Prod.mk.inj hsize
  have hmode : (s.savecursor false).mode.origin = false := ((hupdate _ s.pos).2.1).trans horigin
  have hclamped : (s.savecursor false).clampCursor.pos = (s.savecursor false).pos := by
    apply clampCursor_inside _ hmode
    unfold PosInside
    rw [hpos, hrows, hcols]
    exact hin
  rw [(hupdate _ oldpos).1, ← hrestored]
  unfold VTermState.cursor
  rw [hclamped]
  rfl

end Jterm.Vterm
