import Jterm.Vterm.FlushDamage

/-!
The state and the screen keep the same things twice: the size, the pen, and which of the two
screens is shown. The screen hears of a change only by a call, so that both agree as long as every
change is reported.
-/
namespace Jterm.Vterm

open Runs

/-- A call that tells the screen nothing of the size, the pen or the choice of the screen. -/
def ScreenCall.Quiet : ScreenCall → Prop
  | .setpenattr _ => False
  | .settermprop (.altscreen _) => False
  | .resize _ _ => False
  | _ => True

namespace VTermScreen

/-- What the state keeps too. -/
def shared (s : VTermScreen) : (ℤ × ℤ) × VTermPen × Bool := (s.size, s.pen, s.onBuffer1)

theorem shared_setBuffer (s : VTermScreen) (buffer : ℤ → ℤ → ScreenCell) :
    (s.setBuffer buffer).shared = s.shared := by
  unfold setBuffer
  split
  · rfl
  · rfl

theorem DamageOnly.shared {s t : VTermScreen} (h : s.DamageOnly t) : t.shared = s.shared := by
  rw [h]
  rfl

theorem shared_moverectInternal (dest src : VTermRect) (s : VTermScreen) :
    (moverectInternal dest src s).shared = s.shared := by
  have hpushed : ((prescrollRects dest src).foldl prescroll s).shared = s.shared := by
    refine invariant_of_step prescroll (fun t : VTermScreen => t.shared = s.shared) ?_ _ rfl
    intro t rect ht
    unfold prescroll
    split
    · exact ht
    · exact ht
  unfold moverectInternal
  refine invariant_of_step _ (fun t : VTermScreen => t.shared = s.shared) ?_ _ hpushed
  intro t row ht
  split
  · exact ht
  · unfold moveRow
    dsimp only
    split
    · exact (shared_setBuffer t _).trans ht
    · exact ht

theorem shared_scrollrect (s : VTermScreen) (rect : VTermRect) (downward rightward : ℤ) :
    (s.scrollrect rect downward rightward).shared = s.shared := by
  rw [(damageOnly_scrollrect s rect downward rightward).shared]
  unfold vtermScrollRect
  split
  · exact shared_setBuffer s _
  · exact (shared_setBuffer _ _).trans (shared_moverectInternal _ _ s)

theorem shared_exec (s : VTermScreen) {c : ScreenCall} (h : c.Quiet) :
    (s.exec c).shared = s.shared := by
  cases c with
  | putglyph chars width pos =>
    change (s.putglyph chars width pos).shared = _
    unfold putglyph
    split
    · exact (shared_setBuffer _ _).trans (shared_setBuffer s _)
    · rfl
  | scrollrect rect downward rightward => exact shared_scrollrect s rect downward rightward
  | erase rect => exact shared_setBuffer s _
  | setpenattr attr => exact h.elim
  | settermprop prop =>
    cases prop with
    | altscreen on => exact h.elim
    | _ => rfl
  | resize rows cols => exact h.elim
  | flushDamage => exact (damageOnly_flushDamage s).shared
  | movecursor | setmousefunc | bell => rfl

theorem shared_run (s : VTermScreen) {cs : List ScreenCall} (h : ∀ c ∈ cs, c.Quiet) :
    (run exec s cs).shared = s.shared := by
  induction cs generalizing s with
  | nil => rfl
  | cons c cs ih =>
    have hrest := ih (s.exec c) fun d hd => h d (List.mem_cons_of_mem c hd)
    exact hrest.trans (shared_exec s (h c List.mem_cons_self))

end VTermScreen

namespace VTermState

/-- What the screen keeps too, and what is kept for a later time. -/
def kept (s : VTermState) : Pens × Bool × (ℤ × ℤ) × VTermPos × SavedMode :=
  (s.pens, s.mode.altScreen, (s.rows, s.cols), s.savedPos, s.savedMode)

def QuietTo (kept : Pens × Bool × (ℤ × ℤ) × VTermPos × SavedMode) (calls : List ScreenCall)
    (kept' : Pens × Bool × (ℤ × ℤ) × VTermPos × SavedMode) (calls' : List ScreenCall) : Prop :=
  kept' = kept ∧ ∃ cs, calls' = calls ++ cs ∧ ∀ c ∈ cs, c.Quiet

/-- From `s` to `t` nothing of this changes, and nothing is said of it. -/
def Quietly (s t : VTermState) : Prop := QuietTo s.kept s.calls t.kept t.calls

section Quietly
variable {s t u : VTermState}

theorem Quietly.refl (s : VTermState) : Quietly s s := ⟨rfl, [], (List.append_nil _).symm, by simp⟩

theorem Quietly.trans (hst : Quietly s t) (htu : Quietly t u) : Quietly s u := by
  obtain ⟨hkept, cs, hcs, hfirst⟩ := hst
  obtain ⟨hkept', ds, hds, hsecond⟩ := htu
  refine ⟨hkept'.trans hkept, cs ++ ds, ?_, ?_⟩
  · rw [hds, hcs, List.append_assoc]
  · exact fun c hc => (List.mem_append.mp hc).elim (hfirst c) (hsecond c)

theorem Quietly.call {c : ScreenCall} (h : Quietly s t) (hc : c.Quiet) : Quietly s (t.call c) :=
  h.trans ⟨rfl, [c], rfl, by simpa using hc⟩

theorem Quietly.scroll (h : Quietly s t) (rect : VTermRect) (downward rightward : ℤ) :
    Quietly s (t.scroll rect downward rightward) := by
  unfold VTermState.scroll
  split
  · exact h
  · exact h.call trivial

theorem Quietly.erase (h : Quietly s t) (rect : VTermRect) : Quietly s (t.erase rect) :=
  h.call trivial

theorem Quietly.updatecursor (h : Quietly s t) (oldpos : VTermPos) (cancelPhantom : Bool) :
    Quietly s (t.updatecursor oldpos cancelPhantom) := by
  unfold VTermState.updatecursor
  split
  · exact h
  · exact Quietly.call (t := { t with atPhantom := _ }) h trivial

theorem Quietly.foldl {α : Type*} {step : VTermState → α → VTermState} (h : Quietly s t)
    (hstep : ∀ u a, Quietly u (step u a)) (as : List α) : Quietly s (as.foldl step t) :=
  invariant_of_step step (Quietly s) (fun u a hu => hu.trans (hstep u a)) as h

theorem Quietly.linefeed (h : Quietly s t) : Quietly s t.linefeed := by
  unfold VTermState.linefeed
  split
  · exact h.scroll _ 1 0
  · split
    · exact h
    · exact h

theorem Quietly.reverseIndex (h : Quietly s t) : Quietly s t.reverseIndex := by
  unfold VTermState.reverseIndex
  split
  · exact h.scroll _ (-1) 0
  · split
    · exact h
    · exact h

theorem quietly_control {c : UInt8} (ht : s.control c = some t) : Quietly s t := by
  have hrefl : Quietly s s := .refl s
  unfold VTermState.control at ht
  split at ht
  case h_14 => contradiction
  all_goals obtain rfl := Option.some.inj ht
  · exact hrefl.call trivial
  · split
    · exact hrefl
    · exact hrefl
  · exact hrefl
  · split
    · exact hrefl.linefeed
    · exact hrefl.linefeed
  · split
    · exact hrefl.linefeed
    · exact hrefl.linefeed
  · split
    · exact hrefl.linefeed
    · exact hrefl.linefeed
  · exact hrefl
  · exact hrefl
  · exact hrefl
  · exact hrefl.linefeed
  · exact hrefl.linefeed
  · exact hrefl
  · exact hrefl.reverseIndex

theorem quietly_onControl (s : VTermState) (c : UInt8) : Quietly s (s.onControl c) := by
  unfold VTermState.onControl
  split
  · exact .refl s
  · rename_i t ht
    exact (quietly_control ht).updatecursor s.pos true

theorem Quietly.storeCombineChars (h : Quietly s t) (i : ℕ) (chars : List ℕ) :
    Quietly s (t.storeCombineChars i chars) := by
  have hstore : ∀ {t : VTermState} (i c : ℕ), Quietly s t → Quietly s (t.storeCombine i c) := by
    intro t i c ht
    unfold storeCombine
    split
    · exact ht
    · exact ht
  induction chars generalizing t i with
  | nil => exact hstore i 0 h
  | cons c chars ih => exact ih (hstore i c h) (i + 1)

theorem Quietly.combineSplit (h : Quietly s t) (codepoints : List ℕ) :
    Quietly s (t.combineSplit codepoints).1 := by
  unfold VTermState.combineSplit
  split
  · exact (h.storeCombineChars _ _).call trivial
  · exact h

theorem quietly_glyphStep (s : VTermState) (glyph : List ℕ × Bool) :
    Quietly s (s.glyphStep glyph) := by
  have hwrap : Quietly s s.wrapPhantom := by
    unfold VTermState.wrapPhantom
    split
    · exact (Quietly.refl s).linefeed
    · exact .refl s
  have hroom : Quietly s s.wrapPhantom.insertRoom := by
    unfold VTermState.insertRoom
    split
    · exact hwrap.scroll _ 0 (-1)
    · exact hwrap
  have hput : Quietly s (s.wrapPhantom.insertRoom.putglyph glyph.1 (glyphWidth glyph.1)
      s.wrapPhantom.insertRoom.pos) := hroom.call trivial
  have hsave : Quietly s ((s.wrapPhantom.insertRoom.putglyph glyph.1 (glyphWidth glyph.1)
      s.wrapPhantom.insertRoom.pos).saveGlyph glyph.1 glyph.2) := by
    unfold VTermState.saveGlyph
    split
    · exact hput.storeCombineChars 0 glyph.1
    · exact hput
  unfold glyphStep VTermState.putGlyph VTermState.advance
  dsimp only
  split
  · split
    · exact hsave
    · exact hsave
  · exact hsave

theorem quietly_onText (s : VTermState) (bytes : List UInt8) : Quietly s (s.onText bytes).1 := by
  have hset : ∀ slot inst, Quietly s (s.setEncodingAt slot inst) := by
    intro slot inst
    cases slot with
    | set i => exact .refl s
    | utf8 => exact .refl s
  exact (((hset _ _).combineSplit _).foldl quietly_glyphStep _).updatecursor s.pos false

theorem Quietly.settermprop (h : Quietly s t) {prop : TermProp} (hprop : ∀ on, prop ≠ .altscreen on) :
    Quietly s (t.settermprop prop) := by
  apply h.call
  cases prop with
  | altscreen on => exact absurd rfl (hprop on)
  | _ => trivial

theorem quietly_onOsc (s : VTermState) (command : List UInt8) : Quietly s (s.onOsc command) := by
  have hrefl : Quietly s s := .refl s
  unfold VTermState.onOsc
  split
  · exact (hrefl.settermprop (by simp)).settermprop (by simp)
  · exact hrefl.settermprop (by simp)
  · exact hrefl.settermprop (by simp)
  · exact hrefl

/-- The escape sequences that save or restore the cursor, or reset the terminal. -/
def EscapeSaves : List UInt8 → Prop
  | 0x37 :: _ | 0x38 :: _ | 0x63 :: _ => True
  | _ => False

theorem quietly_onEscape (s : VTermState) {bytes : List UInt8} (h : ¬ EscapeSaves bytes) :
    Quietly s (s.onEscape bytes) := by
  have hrefl : Quietly s s := .refl s
  have hdesignate : ∀ i designation, Quietly s (s.designate i designation) := by
    intro i designation
    unfold designate
    split
    · exact hrefl
    · exact hrefl
  unfold VTermState.onEscape
  split
  · have hput : ∀ (u : VTermState) (pos : VTermPos), Quietly u (u.putglyph [0x45] 1 pos) :=
      fun u pos => (Quietly.refl u).call trivial
    exact hrefl.foldl (fun u row => (Quietly.refl u).foldl (fun v col => hput v _) _) _
  · exact hdesignate 0 _
  · exact hdesignate 1 _
  · exact hdesignate 2 _
  · exact hdesignate 3 _
  · exact absurd trivial h
  · exact absurd trivial h
  · exact hrefl
  · exact hrefl
  · exact absurd trivial h
  · exact hrefl
  · exact hrefl
  · exact hrefl

theorem Quietly.setMouse (h : Quietly s t) (num : ℕ) (val : Bool) :
    Quietly s (t.setMouse num val) := by
  unfold VTermState.setMouse
  dsimp only
  split
  · exact Quietly.call (t := { t with mouse := _ }) (c := .setmousefunc val) h trivial
  · exact Quietly.call (c := .setmousefunc val) h trivial

/-- The modes that switch the screen or save the cursor. -/
def ModeSaves (num : ℕ) : Prop := num = 1047 ∨ num = 1048 ∨ num = 1049

theorem Quietly.setDecMode (h : Quietly s t) {num : ℕ} (hnum : ¬ ModeSaves num) (val : Bool) :
    Quietly s (t.setDecMode num val) := by
  unfold ModeSaves at hnum
  unfold VTermState.setDecMode
  split
  · exact h
  · exact h.settermprop (by simp)
  · apply Quietly.updatecursor
    exact h
  · exact h
  · exact Quietly.settermprop (t := { t with mode := _ }) h (by simp)
  · exact Quietly.settermprop (t := { t with mode := _ }) h (by simp)
  · exact Quietly.setMouse h _ val
  · exact Quietly.setMouse h _ val
  · exact Quietly.setMouse h _ val
  · exact h
  · exact h
  · exact h
  · omega
  · omega
  · omega
  · exact h

theorem Quietly.eraseInDisplay (h : Quietly s t) (val : ℕ) : Quietly s (t.eraseInDisplay val) := by
  unfold VTermState.eraseInDisplay
  split
  · have hline : Quietly s (if t.pos.col < t.cols
        then t.erase ⟨t.pos.row, t.pos.row + 1, t.pos.col, t.cols⟩ else t) := by
      split
      · exact h.erase _
      · exact h
    dsimp only
    split
    · exact hline.erase _
    · exact hline
  · split
    · apply Quietly.erase
      split
      · exact h.erase _
      · exact h
    · split
      · exact h.erase _
      · exact h

theorem quietly_eraseInLine {val : ℕ} (ht : s.eraseInLine val = some t) : Quietly s t := by
  obtain ⟨⟨startCol, endCol⟩, -, rfl⟩ := Option.map_eq_some_iff.mp ht
  dsimp only
  split
  · exact (Quietly.refl s).erase _
  · exact .refl s

theorem quietly_tabClear {val : ℤ} (ht : s.tabClear val = some t) : Quietly s t := by
  unfold VTermState.tabClear at ht
  split_ifs at ht
  · rw [← Option.some.inj ht]
    exact .refl s
  · rw [← Option.some.inj ht]
    have hclear : ∀ u (col : ℕ), Quietly u (u.clearColTabstop col) := fun u col => .refl u
    exact (Quietly.refl s).foldl hclear _
  · rw [← Option.some.inj ht]
    exact .refl s

theorem Quietly.setMode (h : Quietly s t) (num : ℕ) (val : Bool) :
    Quietly s (t.setMode num val) := by
  unfold VTermState.setMode
  split_ifs
  · exact h
  · exact h
  · exact h

/-- The control functions that change the pen, save or restore, reset or switch the screen. -/
def CsiSaves (args : List ℕ) : CsiFunction → Prop
  | .sgr | .decstr | .save | .restore => True
  | .decSm | .decRm => ModeSaves (csiArg (args.getD 0 0))
  | _ => False

theorem quietly_csiCase {args : List ℕ} {f : CsiFunction} (hf : ¬ CsiSaves args f)
    (ht : s.csiCase args f = some t) : Quietly s t := by
  have hrefl : Quietly s s := .refl s
  cases f with
  | el => exact quietly_eraseInLine ht
  | tbc => exact quietly_tabClear ht
  | ich | dch | il | dl | su | sd =>
    rw [← Option.some.inj ht]
    exact hrefl.scroll _ _ _
  | ed =>
    rw [← Option.some.inj ht]
    exact hrefl.eraseInDisplay _
  | ech =>
    rw [← Option.some.inj ht]
    exact hrefl.erase _
  | sm | rm =>
    rw [← Option.some.inj ht]
    split
    · exact hrefl
    · exact hrefl.setMode _ _
  | decSm | decRm =>
    rw [← Option.some.inj ht]
    split
    · exact hrefl
    · exact hrefl.setDecMode hf _
  | sgr | decstr | save | restore => exact absurd trivial hf
  | decscusr =>
    rw [← Option.some.inj ht]
    have hshape : ∀ m : Mode, m.altScreen = s.mode.altScreen → Quietly s { s with mode := m } := by
      intro m hm
      exact ⟨by simp only [kept, hm], hrefl.2⟩
    refine (Quietly.settermprop (hshape _ ?_) (by simp)).settermprop (by simp)
    split_ifs
    all_goals rfl
  | _ =>
    -- what is left moves the cursor or the margins only
    rw [← Option.some.inj ht]
    exact hrefl

end Quietly

end VTermState

/-! What an attribute that is set and a colour that is forgotten keep, setpen keeps. -/

namespace Pens

section Kept
variable {P : Pens → Prop} {p : Pens}

theorem kept_ite {c : Prop} [Decidable c] {q : Pens} (hp : P p) (hq : P q) :
    P (if c then p else q) := by
  split
  · exact hp
  · exact hq

variable (hput : ∀ p attr, P p → P (p.put attr)) (hcolor : ∀ p n, P p → P { p with fgAnsi := n })

include hput hcolor

theorem kept_resetpen (h : P p) : P p.resetpen :=
  hput _ _ (hput _ _ (hcolor _ _ (hput _ _ (hput _ _ (hput _ _ (hput _ _ (hput _ _
    (hput _ _ (hput _ _ h)))))))))

theorem kept_setpenArg (h : P p) (arg : ℕ) : P (p.setpenArg arg) := by
  have hattr : ∀ attr, P (p.put attr) := fun attr => hput p attr h
  have hansi : ∀ n attr, P (Pens.put { p with fgAnsi := n } attr) :=
    fun n attr => hput _ attr (hcolor p n h)
  unfold Pens.setpenArg
  refine kept_ite (kept_resetpen hput hcolor h) ?_
  refine kept_ite (kept_ite (hput _ _ (hattr _)) (hattr _)) ?_
  -- italic, underline, blink, reverse, strike, the font, and each of them off
  refine kept_ite (hattr _) (kept_ite (hattr _) (kept_ite (hattr _) (kept_ite (hattr _) ?_)))
  refine kept_ite (hattr _) (kept_ite (hattr _) (kept_ite (hattr _) (kept_ite (hattr _) ?_)))
  refine kept_ite (hattr _) (kept_ite (hattr _) (kept_ite (hattr _) (kept_ite (hattr _) ?_)))
  refine kept_ite (hattr _) ?_
  -- the colours
  refine kept_ite (hansi _ _) (kept_ite (hansi _ _) (kept_ite (hattr _) (kept_ite (hattr _) ?_)))
  exact kept_ite (hansi _ _) (kept_ite (hattr _) h)

theorem kept_setpenLoop {memory : List ℕ} {argcount : ℕ} (passes : ℕ) (h : P p) (argi : ℕ) :
    P (setpenLoop memory argcount passes argi p) := by
  induction passes generalizing p argi with
  | zero => exact h
  | succ passes ih =>
    unfold setpenLoop
    split
    · exact h
    · dsimp only
      split_ifs
      · exact ih (hput _ _ (hcolor _ _ h)) _
      · exact ih (hput _ _ h) _
      · exact ih (kept_setpenArg hput hcolor h _) _

theorem kept_setpen (h : P p) (args stack : List ℕ) : P (p.setpen args stack) :=
  kept_setpenLoop hput hcolor _ h 0

end Kept

/-- What has been reported leads from `pen` to the pen. -/
def Reported (pen : VTermPen) (p : Pens) : Prop := p.reported.foldl VTermPen.set pen = p.pen

variable {p : Pens} {pen : VTermPen}

theorem reported_put (p : Pens) (attr : PenAttr) (h : p.Reported pen) :
    (p.put attr).Reported pen := by
  unfold Reported Pens.put at *
  dsimp only
  rw [List.foldl_append, h]
  rfl

theorem reported_fgAnsi (p : Pens) (n : ℤ) (h : p.Reported pen) :
    Reported pen { p with fgAnsi := n } := h

theorem Reported.savepen (h : p.Reported pen) (save : Bool) : (p.savepen save).Reported pen := by
  unfold Pens.savepen
  split
  · exact h
  · unfold Reported at *
    dsimp only
    rw [List.foldl_append, h]
    rfl

end Pens

/-- What the screen has of the state: the size, the pen, and that the alternate screen is shown
when the state has switched to it. -/
structure Agrees (screen : VTermScreen) (s : VTermState) : Prop where
  size : screen.size = (s.rows, s.cols)
  pen : screen.pen = s.pens.pen
  alt : s.mode.altScreen = true → screen.onBuffer1 = true

namespace VTermState

variable {screen : VTermScreen} {s t : VTermState}

/-- The screen agrees once it has done what it is asked for. -/
def Told (screen : VTermScreen) (s : VTermState) : Prop :=
  Agrees (run VTermScreen.exec screen s.calls) s

theorem Told.quietly (h : s.Told screen) (hst : Quietly s t) : t.Told screen := by
  obtain ⟨hkept, cs, hcs, hquiet⟩ := hst
  have hshared := VTermScreen.shared_run (run VTermScreen.exec screen s.calls) hquiet
  unfold kept at hkept
  unfold VTermScreen.shared at hshared
  simp only [Prod.mk.injEq] at hkept hshared
  obtain ⟨hpens, halt, ⟨hrows, hcols⟩, -⟩ := hkept
  unfold Told
  rw [hcs, run_append]
  exact ⟨by rw [hshared.1, h.size, hrows, hcols], by rw [hshared.2.1, h.pen, hpens],
    by rw [hshared.2.2, halt]; exact h.alt⟩

theorem run_setpenattr (screen : VTermScreen) (attrs : List PenAttr) :
    run VTermScreen.exec screen (attrs.map .setpenattr) =
      { screen with pen := attrs.foldl VTermPen.set screen.pen } := by
  induction attrs generalizing screen with
  | nil => rfl
  | cons attr attrs ih =>
    rw [List.map_cons, run, List.foldl_cons]
    exact ih _

theorem Told.withPens (h : s.Told screen) {f : Pens → Pens}
    (hf : ∀ p pen, Pens.Reported pen p → (f p).Reported pen) : (s.withPens f).Told screen := by
  have hpen : Pens.Reported s.pens.pen { s.pens with reported := [] } := rfl
  have hreported := hf _ _ hpen
  unfold Told VTermState.withPens
  dsimp only
  rw [run_append, run_setpenattr]
  refine ⟨h.size, ?_, h.alt⟩
  dsimp only
  rw [h.pen]
  exact hreported

theorem Told.altscreen (h : s.Told screen) (alt : Bool) : (s.altscreen alt).Told screen := by
  have hswitched : Told screen { s.settermprop (.altscreen alt) with
      mode := { s.mode with altScreen := alt } } := by
    have hcalls : run VTermScreen.exec screen (s.settermprop (.altscreen alt)).calls =
        (run VTermScreen.exec screen s.calls).settermprop (.altscreen alt) := by
      rw [settermprop, call, run_append]
      rfl
    unfold Told
    rw [hcalls]
    cases alt with
    | false => exact ⟨h.size, h.pen, fun hon => by contradiction⟩
    | true => exact ⟨h.size, h.pen, fun _ => rfl⟩
  unfold VTermState.altscreen
  dsimp only
  split
  · exact hswitched.quietly ((Quietly.refl _).erase _)
  · exact hswitched

theorem Told.savecursor (h : s.Told screen) (save : Bool) : (s.savecursor save).Told screen := by
  have hsaved : Told screen { s with
      savedPos := s.pos
      savedMode := ⟨s.mode.cursorVisible, s.mode.cursorBlink, s.mode.cursorShape⟩ } :=
    ⟨h.size, h.pen, h.alt⟩
  have hrestored : Told screen { s with
      pos := s.savedPos
      mode := { s.mode with
        cursorVisible := s.savedMode.cursorVisible
        cursorBlink := s.savedMode.cursorBlink
        cursorShape := s.savedMode.cursorShape } } := ⟨h.size, h.pen, h.alt⟩
  unfold VTermState.savecursor
  split
  · exact hsaved.withPens fun p pen hp => hp.savepen true
  · dsimp only
    refine Told.quietly (Told.withPens (Told.quietly hrestored ?_) fun p pen hp => hp.savepen false)
      ((Quietly.refl _).updatecursor _ true)
    exact (((Quietly.refl _).settermprop (by simp)).settermprop (by simp)).settermprop (by simp)

theorem Told.reset (h : s.Told screen) (hard : Bool) : (s.reset hard).Told screen := by
  have hfresh : Told screen { s with
      scrollregionStart := 0
      scrollregionEnd := -1
      mode :=
        { keypad := false, cursor := false, autowrap := true, insert := false, newline := false,
          cursorVisible := true, cursorBlink := true, cursorShape := 1, altScreen := false,
          origin := false }
      tabstops := (List.range s.cols.toNat).map fun col => col % 8 = 0 } :=
    ⟨h.size, h.pen, fun hon => by contradiction⟩
  have hpens := hfresh.withPens fun p pen hp =>
    Pens.kept_resetpen Pens.reported_put Pens.reported_fgAnsi hp
  have hprops := hpens.quietly ((((Quietly.refl _).settermprop
    (show ∀ on, TermProp.cursorVisible true ≠ .altscreen on by simp)).settermprop
      (show ∀ on, TermProp.cursorBlink true ≠ .altscreen on by simp)).settermprop
        (show ∀ on, TermProp.cursorShape 1 ≠ .altscreen on by simp))
  unfold VTermState.reset
  dsimp only
  split
  · refine Told.quietly ?_ ((Quietly.refl _).erase _)
    exact ⟨hprops.size, hprops.pen, hprops.alt⟩
  · exact ⟨hprops.size, hprops.pen, hprops.alt⟩

theorem Told.onEscape (h : s.Told screen) (bytes : List UInt8) : (s.onEscape bytes).Told screen := by
  by_cases hsaves : EscapeSaves bytes
  · unfold EscapeSaves at hsaves
    split at hsaves
    · exact h.savecursor true
    · exact h.savecursor false
    · exact (h.reset true).quietly ((Quietly.refl _).call trivial)
    · exact hsaves.elim
  · exact h.quietly (quietly_onEscape s hsaves)

theorem Told.setDecMode (h : s.Told screen) (num : ℕ) (val : Bool) :
    (s.setDecMode num val).Told screen := by
  by_cases hsaves : ModeSaves num
  · rcases hsaves with rfl | rfl | rfl
    · exact h.altscreen val
    · exact h.savecursor val
    · exact (h.altscreen val).savecursor val
  · exact h.quietly ((Quietly.refl s).setDecMode hsaves val)

theorem Told.csiCase (h : s.Told screen) {args : List ℕ} {f : CsiFunction}
    (ht : s.csiCase args f = some t) : t.Told screen := by
  by_cases hsaves : CsiSaves args f
  · cases f
    case sgr =>
      rw [← Option.some.inj ht]
      exact h.withPens fun p pen hp =>
        Pens.kept_setpen Pens.reported_put Pens.reported_fgAnsi hp args s.stack
    case decstr =>
      rw [← Option.some.inj ht]
      exact h.reset false
    case save | restore =>
      rw [← Option.some.inj ht]
      exact h.savecursor _
    case decSm | decRm =>
      rw [← Option.some.inj ht]
      split
      · exact h
      · exact h.setDecMode _ _
    all_goals exact hsaves.elim
  · exact h.quietly (quietly_csiCase hsaves ht)

theorem Told.onCsi (h : s.Told screen) (csi : CsiSequence) : (s.onCsi csi).Told screen := by
  unfold VTermState.onCsi
  split
  · exact h
  · rename_i t ht
    obtain ⟨f, -, hcase⟩ := Option.bind_eq_some_iff.mp ht
    have hcase := h.csiCase hcase
    have hclamped : t.clampCursor.Told screen := ⟨hcase.size, hcase.pen, hcase.alt⟩
    exact hclamped.quietly ((Quietly.refl _).updatecursor s.pos true)

theorem Told.stateCall (h : s.Told screen) (c : ParserCall) : (s.stateCall c).Told screen := by
  cases c with
  | text bytes => exact h.quietly (quietly_onText s bytes)
  | control c => exact h.quietly (quietly_onControl s c)
  | escape str => exact h.onEscape str
  | csi str command => exact h.onCsi _
  | osc str => exact h.quietly (quietly_onOsc s str)
  | dcs str => exact h

/-- A resize does not look at the old size. -/
theorem told_onResize (hpen : screen.pen = s.pens.pen)
    (halt : s.mode.altScreen = true → screen.onBuffer1 = true) (hcalls : s.calls = [])
    (rows cols : ℤ) : (s.onResize rows cols).Told screen := by
  have hfit : (s.fitSize rows cols).calls = [] ∧ (s.fitSize rows cols).pens = s.pens ∧
      (s.fitSize rows cols).mode = s.mode ∧
      ((s.fitSize rows cols).rows, (s.fitSize rows cols).cols) = (rows, cols) := by
    unfold fitSize
    dsimp only
    split_ifs
    all_goals exact ⟨hcalls, rfl, rfl, rfl⟩
  obtain ⟨hnone, hpens, hmode, hsize⟩ := hfit
  have hresized : ((s.fitSize rows cols).call (.resize rows cols)).Told screen := by
    unfold Told call
    dsimp only
    rw [hnone]
    refine ⟨?_, ?_, ?_⟩
    · rw [hsize]
      exact VTermScreen.size_resize screen rows cols
    · rw [hpens, ← hpen]
      change (screen.resize rows cols).pen = _
      unfold VTermScreen.resize
      dsimp only
      split_ifs
      all_goals rfl
    · rw [hmode]
      intro hon
      change (screen.resize rows cols).onBuffer1 = true
      rw [← halt hon]
      unfold VTermScreen.resize
      dsimp only
      split_ifs
      all_goals rfl
  exact hresized.quietly ((Quietly.refl _).updatecursor s.pos true)

end VTermState

open VTermState

theorem agrees_apply {d : Display} {f : VTermState → VTermState}
    (h : (f { d.state with calls := [] }).Told d.screen) :
    Agrees (d.apply f).screen (d.apply f).state := ⟨h.size, h.pen, h.alt⟩

theorem Agrees.call {d : Display} (h : Agrees d.screen d.state) (c : ParserCall) :
    Agrees (d.call c).screen (d.call c).state := by
  have hnone : Told d.screen { d.state with calls := [] } := ⟨h.size, h.pen, h.alt⟩
  exact agrees_apply (hnone.stateCall c)

theorem Agrees.flushDamage {screen : VTermScreen} {s : VTermState} (h : Agrees screen s) :
    Agrees screen.flushDamage s := by
  have hshared := (VTermScreen.damageOnly_flushDamage screen).shared
  unfold VTermScreen.shared at hshared
  simp only [Prod.mk.injEq] at hshared
  obtain ⟨hsize, hpen, halt⟩ := hshared
  exact ⟨hsize.trans h.size, hpen.trans h.pen, fun hon => halt.trans (h.alt hon)⟩

theorem Agrees.vtermStep {t : VTerm} (h : Agrees t.display.screen t.display.state) (e : VTermEvent) :
    Agrees (vtermStep t e).display.screen (vtermStep t e).display.state := by
  cases e with
  | recv bytes =>
    change Agrees (webvtermRecv t bytes).display.screen (webvtermRecv t bytes).display.state
    rw [webvtermRecv_display]
    exact invariant_of_step Display.call (fun d => Agrees d.screen d.state) (fun d c hd => hd.call c)
      _ h
  | flush => exact h.flushDamage
  | resize c r =>
    exact agrees_apply (told_onResize (s := { t.display.state with calls := [] }) h.pen h.alt rfl r c)

theorem agrees_webvtermInit (cols rows : ℤ) (lowMemory : ℤ → ScreenCell) (stack : List ℕ) :
    let t := webvtermInit cols rows lowMemory stack
    Agrees t.display.screen t.display.state := by
  have hnew : Told (.new rows cols lowMemory) { VTermState.new rows cols stack with calls := [] } :=
    ⟨rfl, rfl, fun hon => by contradiction⟩
  have hreset := agrees_apply (d := ⟨.new rows cols stack, .new rows cols lowMemory⟩)
    (f := fun s => s.reset true) (hnew.reset true)
  unfold webvtermInit
  dsimp only
  generalize Display.apply _ _ = d at hreset ⊢
  have hflushed := hreset.flushDamage
  exact ⟨hflushed.size, hflushed.pen, hflushed.alt⟩

end Jterm.Vterm
