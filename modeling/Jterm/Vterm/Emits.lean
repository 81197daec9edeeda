import Jterm.Vterm.Webvterm

/-!
What the state asks of the screen while the size stays. The functions behind the parser's
callbacks, on_text apart, leave the saved glyph alone and make calls one at a time, except that
the alternate screen is switched on in front of an erase of all rows.
-/
namespace Jterm.Vterm

open Runs

/-- A call that is made on its own: no resize, no flush, no switch to the alternate screen, and no
glyph of several characters. -/
def ScreenCall.Simple : ScreenCall → Prop
  | .settermprop (.altscreen true) => False
  | .resize _ _ => False
  | .flushDamage => False
  | .putglyph chars _ _ => chars.length = 1
  | _ => True

/-- A family of lists of calls, on a screen of so many rows, that has all of these. -/
class CallFamily (P : ℤ → List ScreenCall → Prop) : Prop where
  nil (rows : ℤ) : P rows []
  append {rows : ℤ} {cs ds : List ScreenCall} : P rows cs → P rows ds → P rows (cs ++ ds)
  simple {rows : ℤ} {c : ScreenCall} : c.Simple → P rows [c]
  altscreen {rows : ℤ} {rect : VTermRect} : rect.startRow = 0 → rect.endRow = rows →
    P rows [.settermprop (.altscreen true), .erase rect]

theorem CallFamily.of_simple {P : ℤ → List ScreenCall → Prop} [CallFamily P] {rows : ℤ}
    {cs : List ScreenCall} (h : ∀ c ∈ cs, c.Simple) : P rows cs := by
  induction cs with
  | nil => exact CallFamily.nil rows
  | cons c cs ih =>
    have hfirst : P rows [c] := CallFamily.simple (h c List.mem_cons_self)
    exact CallFamily.append hfirst (ih fun d hd => h d (List.mem_cons_of_mem c hd))

namespace VTermState

def MakesTo (P : ℤ → List ScreenCall → Prop) (rows : ℤ) (combineChars : List ℕ)
    (calls : List ScreenCall) (rows' : ℤ) (combineChars' : List ℕ) (calls' : List ScreenCall) : Prop :=
  rows' = rows ∧ combineChars' = combineChars ∧ ∃ cs, calls' = calls ++ cs ∧ P rows cs

/-- From `s` to `t` the rows and the saved glyph stay and the calls made are of the family. -/
def Makes (P : ℤ → List ScreenCall → Prop) (s t : VTermState) : Prop :=
  MakesTo P s.rows s.combineChars s.calls t.rows t.combineChars t.calls

section Makes
variable {P : ℤ → List ScreenCall → Prop} [CallFamily P] {s t u : VTermState}

theorem Makes.refl (s : VTermState) : Makes P s s :=
  ⟨rfl, rfl, [], (List.append_nil _).symm, CallFamily.nil _⟩

theorem Makes.trans (hst : Makes P s t) (htu : Makes P t u) : Makes P s u := by
  obtain ⟨hrows, hchars, cs, hcs, hfirst⟩ := hst
  obtain ⟨hrows', hchars', ds, hds, hsecond⟩ := htu
  rw [hrows] at hsecond
  refine ⟨hrows'.trans hrows, hchars'.trans hchars, cs ++ ds, ?_, CallFamily.append hfirst hsecond⟩
  rw [hds, hcs, List.append_assoc]

theorem Makes.call {c : ScreenCall} (h : Makes P s t) (hc : c.Simple) : Makes P s (t.call c) :=
  h.trans ⟨rfl, rfl, [c], rfl, CallFamily.simple hc⟩

theorem Makes.scroll (h : Makes P s t) (rect : VTermRect) (downward rightward : ℤ) :
    Makes P s (t.scroll rect downward rightward) := by
  unfold VTermState.scroll
  split
  · exact h
  · exact h.call trivial

theorem Makes.erase (h : Makes P s t) (rect : VTermRect) : Makes P s (t.erase rect) := h.call trivial

theorem Makes.updatecursor (h : Makes P s t) (oldpos : VTermPos) (cancelPhantom : Bool) :
    Makes P s (t.updatecursor oldpos cancelPhantom) := by
  unfold VTermState.updatecursor
  split
  · exact h
  · exact Makes.call (t := { t with atPhantom := _ }) h trivial

theorem Makes.withPens (h : Makes P s t) (f : Pens → Pens) : Makes P s (t.withPens f) := by
  refine h.trans ⟨rfl, rfl, _, rfl, CallFamily.of_simple ?_⟩
  intro c hc
  obtain ⟨attr, -, rfl⟩ := List.mem_map.mp hc
  trivial

/-- A run of such steps. -/
theorem Makes.foldl {α : Type*} {step : VTermState → α → VTermState} (h : Makes P s t)
    (hstep : ∀ u a, Makes P u (step u a)) (as : List α) : Makes P s (as.foldl step t) :=
  invariant_of_step step (Makes P s) (fun u a hu => hu.trans (hstep u a)) as h

theorem Makes.linefeed (h : Makes P s t) : Makes P s t.linefeed := by
  unfold VTermState.linefeed
  split
  · exact h.scroll _ 1 0
  · split
    · exact h
    · exact h

theorem Makes.reverseIndex (h : Makes P s t) : Makes P s t.reverseIndex := by
  unfold VTermState.reverseIndex
  split
  · exact h.scroll _ (-1) 0
  · split
    · exact h
    · exact h

theorem makes_control {c : UInt8} (ht : s.control c = some t) : Makes P s t := by
  have hrefl : Makes P s s := .refl s
  unfold VTermState.control at ht
  split at ht
  case h_14 => contradiction
  all_goals obtain rfl := Option.some.inj ht
  · exact hrefl.call trivial
  · split
    · exact hrefl
    · exact hrefl
  · exact hrefl
  · split
    · exact hrefl.linefeed
    · exact hrefl.linefeed
  · split
    · exact hrefl.linefeed
    · exact hrefl.linefeed
  · split
    · exact hrefl.linefeed
    · exact hrefl.linefeed
  · exact hrefl
  · exact hrefl
  · exact hrefl
  · exact hrefl.linefeed
  · exact hrefl.linefeed
  · exact hrefl
  · exact hrefl.reverseIndex

theorem makes_onControl (s : VTermState) (c : UInt8) : Makes P s (s.onControl c) := by
  unfold VTermState.onControl
  split
  · exact .refl s
  · rename_i t ht
    exact (makes_control ht).updatecursor s.pos true

theorem Makes.settermprop (h : Makes P s t) {prop : TermProp} (hprop : prop ≠ .altscreen true) :
    Makes P s (t.settermprop prop) := by
  apply h.call
  cases prop with
  | altscreen on =>
    cases on with
    | false => trivial
    | true => exact absurd rfl hprop
  | _ => trivial

theorem Makes.savecursor (h : Makes P s t) (save : Bool) : Makes P s (t.savecursor save) := by
  have hsaved : Makes P s { t with
      savedPos := t.pos
      savedMode := ⟨t.mode.cursorVisible, t.mode.cursorBlink, t.mode.cursorShape⟩ } := h
  have hrestored : Makes P s { t with
      pos := t.savedPos
      mode := { t.mode with
        cursorVisible := t.savedMode.cursorVisible
        cursorBlink := t.savedMode.cursorBlink
        cursorShape := t.savedMode.cursorShape } } := h
  unfold VTermState.savecursor
  split
  · exact hsaved.withPens _
  · dsimp only
    apply Makes.updatecursor
    apply Makes.withPens
    refine Makes.settermprop (Makes.settermprop ?_ (by simp)) (by simp)
    exact hrestored.settermprop (by simp)

/-- The erase behind the switch to the alternate screen. -/
theorem Makes.altscreen (h : Makes P s t) (alt : Bool) : Makes P s (t.altscreen alt) := by
  cases alt with
  | false => exact h.call (c := .settermprop (.altscreen false)) trivial
  | true =>
    refine h.trans ⟨rfl, rfl, [.settermprop (.altscreen true), .erase t.screenRect], ?_, ?_⟩
    · change (t.calls ++ [_]) ++ [_] = _
      rw [List.append_assoc]
      rfl
    · exact CallFamily.altscreen rfl rfl

theorem makes_reset (s : VTermState) (hard : Bool) : Makes P s (s.reset hard) := by
  have hfresh : Makes P s { s with
      scrollregionStart := 0
      scrollregionEnd := -1
      mode :=
        { keypad := false, cursor := false, autowrap := true, insert := false, newline := false,
          cursorVisible := true, cursorBlink := true, cursorShape := 1, altScreen := false,
          origin := false }
      tabstops := (List.range s.cols.toNat).map fun col => col % 8 = 0 } := .refl s
  have hvisible : TermProp.cursorVisible true ≠ .altscreen true := by simp
  have hblink : TermProp.cursorBlink true ≠ .altscreen true := by simp
  have hshape : TermProp.cursorShape 1 ≠ .altscreen true := by simp
  have hprops := (((hfresh.withPens Pens.resetpen).settermprop hvisible).settermprop
    hblink).settermprop hshape
  unfold VTermState.reset
  dsimp only
  split
  · apply Makes.erase
    exact hprops
  · exact hprops

theorem makes_onEscape (s : VTermState) (bytes : List UInt8) : Makes P s (s.onEscape bytes) := by
  have hrefl : Makes P s s := .refl s
  have hdesignate : ∀ i designation, Makes P s (s.designate i designation) := by
    intro i designation
    unfold designate
    split
    · exact hrefl
    · exact hrefl
  unfold VTermState.onEscape
  split
  · have hput : ∀ (u : VTermState) (pos : VTermPos), Makes P u (u.putglyph [0x45] 1 pos) :=
      fun u pos => (Makes.refl u).call (c := .putglyph [0x45] 1 pos) rfl
    exact hrefl.foldl (fun u row => (Makes.refl u).foldl (fun v col => hput v _) _) _
  · exact hdesignate 0 _
  · exact hdesignate 1 _
  · exact hdesignate 2 _
  · exact hdesignate 3 _
  · exact hrefl.savecursor true
  · exact hrefl.savecursor false
  · exact hrefl
  · exact hrefl
  · exact (makes_reset s true).call trivial
  · exact hrefl
  · exact hrefl
  · exact hrefl

theorem makes_onOsc (s : VTermState) (command : List UInt8) : Makes P s (s.onOsc command) := by
  have hrefl : Makes P s s := .refl s
  unfold VTermState.onOsc
  split
  · exact (hrefl.settermprop (by simp)).settermprop (by simp)
  · exact hrefl.settermprop (by simp)
  · exact hrefl.settermprop (by simp)
  · exact hrefl

theorem Makes.setMouse (h : Makes P s t) (num : ℕ) (val : Bool) : Makes P s (t.setMouse num val) := by
  unfold VTermState.setMouse
  dsimp only
  split
  · exact Makes.call (t := { t with mouse := _ }) (c := .setmousefunc val) h trivial
  · exact Makes.call (c := .setmousefunc val) h trivial

theorem Makes.setDecMode (h : Makes P s t) (num : ℕ) (val : Bool) : Makes P s (t.setDecMode num val) := by
  unfold VTermState.setDecMode
  split
  · exact h
  · exact h.settermprop (by simp)
  · apply Makes.updatecursor
    exact h
  · exact h
  · exact Makes.settermprop (t := { t with mode := _ }) h (by simp)
  · exact Makes.settermprop (t := { t with mode := _ }) h (by simp)
  · exact Makes.setMouse h _ val
  · exact Makes.setMouse h _ val
  · exact Makes.setMouse h _ val
  · exact h
  · exact h
  · exact h
  · exact h.altscreen val
  · exact h.savecursor val
  · exact (h.altscreen val).savecursor val
  · exact h

theorem Makes.eraseInDisplay (h : Makes P s t) (val : ℕ) : Makes P s (t.eraseInDisplay val) := by
  unfold VTermState.eraseInDisplay
  split
  · have hline : Makes P s (if t.pos.col < t.cols
        then t.erase ⟨t.pos.row, t.pos.row + 1, t.pos.col, t.cols⟩ else t) := by
      split
      · exact h.erase _
      · exact h
    dsimp only
    split
    · exact hline.erase _
    · exact hline
  · split
    · apply Makes.erase
      split
      · exact h.erase _
      · exact h
    · split
      · exact h.erase _
      · exact h

theorem makes_eraseInLine {val : ℕ} (ht : s.eraseInLine val = some t) : Makes P s t := by
  obtain ⟨⟨startCol, endCol⟩, -, rfl⟩ := Option.map_eq_some_iff.mp ht
  dsimp only
  split
  · exact (Makes.refl s).erase _
  · exact .refl s

theorem makes_tabClear {val : ℤ} (ht : s.tabClear val = some t) : Makes P s t := by
  unfold VTermState.tabClear at ht
  split_ifs at ht
  · rw [← Option.some.inj ht]
    exact .refl s
  · rw [← Option.some.inj ht]
    have hclear : ∀ u (col : ℕ), Makes P u (u.clearColTabstop col) := fun u col => .refl u
    exact (Makes.refl s).foldl hclear _
  · rw [← Option.some.inj ht]
    exact .refl s

omit [CallFamily P] in
theorem Makes.setMode (h : Makes P s t) (num : ℕ) (val : Bool) : Makes P s (t.setMode num val) := by
  unfold VTermState.setMode
  split_ifs
  · exact h
  · exact h
  · exact h

theorem makes_csiCase {args : List ℕ} {f : CsiFunction} (ht : s.csiCase args f = some t) :
    Makes P s t := by
  have hrefl : Makes P s s := .refl s
  cases f with
  | el => exact makes_eraseInLine ht
  | tbc => exact makes_tabClear ht
  | ich | dch | il | dl | su | sd =>
    rw [← Option.some.inj ht]
    exact hrefl.scroll _ _ _
  | ed =>
    rw [← Option.some.inj ht]
    exact hrefl.eraseInDisplay _
  | ech =>
    rw [← Option.some.inj ht]
    exact hrefl.erase _
  | sm | rm =>
    rw [← Option.some.inj ht]
    split
    · exact hrefl
    · exact hrefl.setMode _ _
  | decSm | decRm =>
    rw [← Option.some.inj ht]
    split
    · exact hrefl
    · exact hrefl.setDecMode _ _
  | sgr =>
    rw [← Option.some.inj ht]
    exact hrefl.withPens _
  | decstr =>
    rw [← Option.some.inj ht]
    exact makes_reset s false
  | decscusr =>
    rw [← Option.some.inj ht]
    have hmode : Makes P s { s with mode := _ } := hrefl
    exact (hmode.settermprop (by simp)).settermprop (by simp)
  | save | restore =>
    rw [← Option.some.inj ht]
    exact hrefl.savecursor _
  | _ =>
    -- what is left moves the cursor or the margins only
    rw [← Option.some.inj ht]
    exact hrefl

theorem makes_onCsi (s : VTermState) (csi : CsiSequence) : Makes P s (s.onCsi csi) := by
  unfold VTermState.onCsi
  split
  · exact .refl s
  · rename_i t ht
    obtain ⟨f, -, hcase⟩ := Option.bind_eq_some_iff.mp ht
    have hemits : Makes P s t := makes_csiCase hcase
    exact Makes.updatecursor (t := t.clampCursor) hemits s.pos true

theorem makes_stateCall (s : VTermState) {c : ParserCall} (h : ∀ bytes, c ≠ .text bytes) :
    Makes P s (s.stateCall c) := by
  cases c with
  | text bytes => exact absurd rfl (h bytes)
  | control c => exact makes_onControl s c
  | escape str => exact makes_onEscape s str
  | csi str command => exact makes_onCsi s (parseCsi str command)
  | osc str => exact makes_onOsc s str
  | dcs str => exact .refl s

end Makes

end VTermState

/-- A family that has every glyph too. -/
class TextFamily (P : ℤ → List ScreenCall → Prop) : Prop extends CallFamily P where
  putglyph {rows : ℤ} (chars : List ℕ) (width : ℤ) (pos : VTermPos) :
    P rows [.putglyph chars width pos]

namespace VTermState

def AsksTo (P : ℤ → List ScreenCall → Prop) (rows : ℤ) (calls : List ScreenCall) (rows' : ℤ)
    (calls' : List ScreenCall) : Prop :=
  rows' = rows ∧ ∃ cs, calls' = calls ++ cs ∧ P rows cs

/-- From `s` to `t` the rows stay and the calls made are of the family. -/
def Asks (P : ℤ → List ScreenCall → Prop) (s t : VTermState) : Prop :=
  AsksTo P s.rows s.calls t.rows t.calls

section Asks
variable {P : ℤ → List ScreenCall → Prop} [TextFamily P] {s t u : VTermState}

omit [TextFamily P] in
theorem Makes.asks (h : Makes P s t) : Asks P s t := ⟨h.1, h.2.2⟩

theorem Asks.refl (s : VTermState) : Asks P s s := (Makes.refl s).asks

theorem Asks.trans (hst : Asks P s t) (htu : Asks P t u) : Asks P s u := by
  obtain ⟨hrows, cs, hcs, hfirst⟩ := hst
  obtain ⟨hrows', ds, hds, hsecond⟩ := htu
  rw [hrows] at hsecond
  refine ⟨hrows'.trans hrows, cs ++ ds, ?_, CallFamily.append hfirst hsecond⟩
  rw [hds, hcs, List.append_assoc]

theorem Asks.putglyph (h : Asks P s t) (chars : List ℕ) (width : ℤ) (pos : VTermPos) :
    Asks P s (t.putglyph chars width pos) :=
  h.trans ⟨rfl, [.putglyph chars width pos], rfl, TextFamily.putglyph chars width pos⟩

omit [TextFamily P] in
theorem Asks.storeCombineChars (h : Asks P s t) (i : ℕ) (chars : List ℕ) :
    Asks P s (t.storeCombineChars i chars) := by
  have hstore : ∀ {t : VTermState} (i c : ℕ), Asks P s t → Asks P s (t.storeCombine i c) := by
    intro t i c ht
    unfold storeCombine
    split
    · exact ht
    · exact ht
  induction chars generalizing t i with
  | nil => exact hstore i 0 h
  | cons c chars ih => exact ih (hstore i c h) (i + 1)

theorem Asks.combineSplit (h : Asks P s t) (codepoints : List ℕ) :
    Asks P s (t.combineSplit codepoints).1 := by
  unfold VTermState.combineSplit
  split
  · exact (h.storeCombineChars _ _).putglyph _ _ _
  · exact h

theorem asks_glyphStep (s : VTermState) (glyph : List ℕ × Bool) : Asks P s (s.glyphStep glyph) := by
  have hwrap : Asks P s s.wrapPhantom := by
    unfold VTermState.wrapPhantom
    split
    · exact (Makes.refl s).linefeed.asks
    · exact .refl s
  have hroom : Asks P s s.wrapPhantom.insertRoom := by
    unfold VTermState.insertRoom
    split
    · exact hwrap.trans ((Makes.refl _).scroll _ 0 (-1)).asks
    · exact hwrap
  have hput := hroom.putglyph glyph.1 (glyphWidth glyph.1) s.wrapPhantom.insertRoom.pos
  have hsave : Asks P s ((s.wrapPhantom.insertRoom.putglyph glyph.1 (glyphWidth glyph.1)
      s.wrapPhantom.insertRoom.pos).saveGlyph glyph.1 glyph.2) := by
    unfold VTermState.saveGlyph
    split
    · exact hput.storeCombineChars 0 glyph.1
    · exact hput
  unfold glyphStep VTermState.putGlyph VTermState.advance
  dsimp only
  split
  · split
    · exact hsave
    · exact hsave
  · exact hsave

theorem asks_onText (s : VTermState) (bytes : List UInt8) : Asks P s (s.onText bytes).1 := by
  have hset : ∀ slot inst, Asks P s (s.setEncodingAt slot inst) := by
    intro slot inst
    cases slot with
    | set i => exact .refl s
    | utf8 => exact .refl s
  have hglyphs : ∀ t glyphs, Asks P s t → Asks P s (run glyphStep t glyphs) := fun t glyphs ht =>
    invariant_of_step glyphStep (Asks P s) (fun u g hu => hu.trans (asks_glyphStep u g)) glyphs ht
  exact (hglyphs _ _ ((hset _ _).combineSplit _)).trans
    ((Makes.refl _).updatecursor s.pos false).asks

theorem asks_stateCall (s : VTermState) (c : ParserCall) : Asks P s (s.stateCall c) := by
  cases c with
  | text bytes => exact asks_onText s bytes
  | _ => exact (makes_stateCall s (by simp)).asks

end Asks

end VTermState

/-- What a function of the state makes the screen do, when it is run with the screen behind it. -/
theorem asks_apply {P : ℤ → List ScreenCall → Prop} {d : Display} {f : VTermState → VTermState}
    (hf : VTermState.Asks P { d.state with calls := [] } (f { d.state with calls := [] })) :
    P d.state.rows (f { d.state with calls := [] }).calls ∧
      (d.apply f).state.rows = d.state.rows := by
  obtain ⟨hrows, cs, hcalls, hfamily⟩ := hf
  rw [List.nil_append] at hcalls
  rw [hcalls]
  exact ⟨hfamily, hrows⟩

/-- Callbacks of the parser ask for calls of the family. -/
theorem asks_displayCalls {P : ℤ → List ScreenCall → Prop} [TextFamily P] (d : Display)
    (cs : List ParserCall) :
    P d.state.rows (displayCalls d cs) ∧ (run Display.call d cs).state.rows = d.state.rows := by
  induction cs generalizing d with
  | nil => exact ⟨CallFamily.nil _, rfl⟩
  | cons c cs ih =>
    obtain ⟨hfirst, hrows⟩ :=
      asks_apply (d := d) (f := fun s => s.stateCall c) (VTermState.asks_stateCall (P := P) _ c)
    obtain ⟨hrest, hfinal⟩ := ih (d.call c)
    have hcall : (d.call c).state.rows = d.state.rows := hrows
    rw [hcall] at hrest hfinal
    exact ⟨CallFamily.append hfirst hrest, hfinal⟩

/-- Neither a resize nor a switch to the alternate screen. -/
def ScreenCall.Plain : ScreenCall → Prop
  | .settermprop (.altscreen true) => False
  | .resize _ _ => False
  | _ => True

/-- Calls in which every switch to the alternate screen is followed by the erase it needs. -/
inductive Paid (rows : ℤ) : List ScreenCall → Prop
  | nil : Paid rows []
  | cons {c : ScreenCall} {cs : List ScreenCall} : c.Plain → Paid rows cs → Paid rows (c :: cs)
  | altscreen {rect : VTermRect} {cs : List ScreenCall} : rect.startRow = 0 → rect.endRow = rows →
      Paid rows cs → Paid rows (.settermprop (.altscreen true) :: .erase rect :: cs)

theorem Paid.append {rows : ℤ} {cs ds : List ScreenCall} (hcs : Paid rows cs) (hds : Paid rows ds) :
    Paid rows (cs ++ ds) := by
  induction hcs with
  | nil => exact hds
  | cons hc _ ih => exact .cons hc ih
  | altscreen hstart hend _ ih => exact .altscreen hstart hend ih

instance : TextFamily Paid where
  nil _ := .nil
  append := Paid.append
  simple {rows c} hc := by
    have hplain : c.Plain := by
      unfold ScreenCall.Simple at hc
      unfold ScreenCall.Plain
      split at hc <;> simp_all
    exact .cons hplain .nil
  altscreen hstart hend := .altscreen hstart hend .nil
  putglyph _ _ _ := .cons trivial .nil

namespace VTermState

def EmitsTo (rows : ℤ) (calls : List ScreenCall) (rows' : ℤ) (calls' : List ScreenCall) : Prop :=
  rows' = rows ∧ ∃ cs, calls' = calls ++ cs ∧ Paid rows cs

/-- From `s` to `t` the rows stay and only paid calls are made. -/
def Emits (s t : VTermState) : Prop := EmitsTo s.rows s.calls t.rows t.calls

theorem emits_reset (s : VTermState) (hard : Bool) : Emits s (s.reset hard) :=
  (makes_reset s hard).asks

end VTermState

end Jterm.Vterm
