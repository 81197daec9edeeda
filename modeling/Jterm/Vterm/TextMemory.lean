import Jterm.Vterm.Webvterm

/-!
What on_text keeps for the next run of text: the last glyph, for combining characters, and
the decoders. No other function reads the glyph, and none but a reset and SCS touches the
decoders, so that each does the same over any text memory, behind any calls already made.
-/
namespace Jterm.Vterm

/-- The glyph that may still be combined with. -/
structure SavedGlyph where
  chars : List ℕ
  width : ℤ
  pos : VTermPos

structure Decoders where
  encoding : Fin 4 → VTermEncodingInstance
  encodingUtf8 : VTermEncodingInstance

/-- New encodings for some of the slots, as a reset and SCS choose them. -/
def Decoders.select (e : Decoders) (pick : Fin 4 → Option VTermEncoding) : Decoders :=
  { e with encoding := fun i => (pick i).elim (e.encoding i) (e.encoding i).select }

namespace VTermState

def savedGlyph (s : VTermState) : SavedGlyph := ⟨s.combineChars, s.combineWidth, s.combinePos⟩

def decoders (s : VTermState) : Decoders := ⟨s.encoding, s.encodingUtf8⟩

/-- The state with another text memory, behind the calls `cs`. -/
def onto (s : VTermState) (g : SavedGlyph) (e : Decoders) (cs : List ScreenCall) : VTermState :=
  { s with
    combineChars := g.chars
    combineWidth := g.width
    combinePos := g.pos
    encoding := e.encoding
    encodingUtf8 := e.encodingUtf8
    calls := cs ++ s.calls }

theorem onto_self (s : VTermState) : s.onto s.savedGlyph s.decoders [] = s := rfl

section Onto
variable (s : VTermState) (g : SavedGlyph) (e : Decoders) (cs : List ScreenCall)

@[simp] theorem onto_rows : (s.onto g e cs).rows = s.rows := rfl
@[simp] theorem onto_cols : (s.onto g e cs).cols = s.cols := rfl
@[simp] theorem onto_pos : (s.onto g e cs).pos = s.pos := rfl
@[simp] theorem onto_mode : (s.onto g e cs).mode = s.mode := rfl
@[simp] theorem onto_isUtf8 : (s.onto g e cs).isUtf8 = s.isUtf8 := rfl
@[simp] theorem onto_savedGlyph : (s.onto g e cs).savedGlyph = g := rfl
@[simp] theorem onto_decoders : (s.onto g e cs).decoders = e := rfl
@[simp] theorem onto_calls : (s.onto g e cs).calls = cs ++ s.calls := rfl

@[simp] theorem onto_onto (g' : SavedGlyph) (e' : Decoders) (cs' : List ScreenCall) :
    (s.onto g e cs).onto g' e' cs' = s.onto g' e' (cs' ++ cs) := by
  unfold onto
  simp only [List.append_assoc]

theorem call_onto (c : ScreenCall) : (s.onto g e cs).call c = (s.call c).onto g e cs := by
  unfold call onto
  simp only [List.append_assoc]

theorem ite_onto (t : VTermState) (p : Prop) [Decidable p] :
    (if p then s.onto g e cs else t.onto g e cs) = (if p then s else t).onto g e cs := by
  split
  · rfl
  · rfl

theorem updatecursor_onto (oldpos : VTermPos) (cancelPhantom : Bool) :
    (s.onto g e cs).updatecursor oldpos cancelPhantom =
      (s.updatecursor oldpos cancelPhantom).onto g e cs := by
  unfold updatecursor
  rw [onto_pos]
  split
  · rfl
  · exact call_onto { s with atPhantom := if cancelPhantom then false else s.atPhantom } g e cs
      (.movecursor s.pos oldpos s.mode.cursorVisible)

theorem scroll_onto (rect : VTermRect) (downward rightward : ℤ) :
    (s.onto g e cs).scroll rect downward rightward =
      (s.scroll rect downward rightward).onto g e cs := by
  unfold scroll
  split
  · rfl
  · exact call_onto s g e cs _

theorem linefeed_onto : (s.onto g e cs).linefeed = s.linefeed.onto g e cs := by
  unfold linefeed
  change (if s.pos.row = s.scrollregionBottom - 1 then
      (s.onto g e cs).scroll s.scrollregion 1 0
    else if s.pos.row < s.rows - 1 then _ else s.onto g e cs) = _
  split_ifs
  · exact scroll_onto s g e cs _ 1 0
  · rfl
  · rfl

theorem reverseIndex_onto : (s.onto g e cs).reverseIndex = s.reverseIndex.onto g e cs := by
  unfold reverseIndex
  change (if s.pos.row = s.scrollregionStart then
      (s.onto g e cs).scroll s.scrollregion (-1) 0
    else if 0 < s.pos.row then _ else s.onto g e cs) = _
  split_ifs
  · exact scroll_onto s g e cs _ (-1) 0
  · rfl
  · rfl

theorem tab_onto (count direction : ℤ) :
    (s.onto g e cs).tab count direction = (s.tab count direction).onto g e cs := by
  have hloop : ∀ (steps : ℕ) (col : ℤ),
      (s.onto g e cs).tabLoop direction steps col = s.tabLoop direction steps col := by
    intro steps
    induction steps with
    | zero => exact fun _ => rfl
    | succ steps ih =>
      intro col
      unfold tabLoop
      rw [ih]
      rfl
  have hstep : (s.onto g e cs).tabLoop direction s.cols.toNat = s.tabLoop direction s.cols.toNat :=
    funext (hloop _)
  unfold tab
  rw [onto_cols, hstep]
  rfl

theorem carriageReturn_onto : (s.onto g e cs).carriageReturn = s.carriageReturn.onto g e cs := rfl

theorem control_onto (c : UInt8) :
    (s.onto g e cs).control c = (s.control c).map fun t => t.onto g e cs := by
  have hfeed : (if (s.onto g e cs).linefeed.mode.newline then (s.onto g e cs).linefeed.carriageReturn
      else (s.onto g e cs).linefeed) =
        (if s.linefeed.mode.newline then s.linefeed.carriageReturn else s.linefeed).onto g e cs := by
    rw [linefeed_onto, onto_mode, carriageReturn_onto]
    split
    · rfl
    · rfl
  unfold control
  split
  · exact congrArg some (call_onto s g e cs _)
  · refine congrArg some ?_
    rw [onto_pos]
    split
    · rfl
    · rfl
  · exact congrArg some (tab_onto s g e cs 1 1)
  · exact congrArg some hfeed
  · exact congrArg some hfeed
  · exact congrArg some hfeed
  · rfl
  · rfl
  · rfl
  · exact congrArg some (linefeed_onto s g e cs)
  · rw [linefeed_onto]
    rfl
  · rfl
  · exact congrArg some (reverseIndex_onto s g e cs)
  · rfl

theorem onControl_onto (c : UInt8) :
    (s.onto g e cs).onControl c = (s.onControl c).onto g e cs := by
  unfold onControl
  rw [control_onto]
  cases s.control c with
  | none => rfl
  | some t => exact updatecursor_onto t g e cs s.pos true

theorem withPens_onto (f : Pens → Pens) :
    (s.onto g e cs).withPens f = (s.withPens f).onto g e cs := by
  unfold withPens onto
  simp only [List.append_assoc]

theorem settermprop_onto (prop : TermProp) :
    (s.onto g e cs).settermprop prop = (s.settermprop prop).onto g e cs := call_onto s g e cs _

theorem erase_onto (rect : VTermRect) :
    (s.onto g e cs).erase rect = (s.erase rect).onto g e cs := call_onto s g e cs _

theorem savecursor_onto (save : Bool) :
    (s.onto g e cs).savecursor save = (s.savecursor save).onto g e cs := by
  cases save with
  | true => simp only [savecursor, withPens, onto, if_true, List.append_assoc]
  | false =>
    simp only [savecursor, Bool.false_eq_true, if_false]
    rw [← updatecursor_onto]
    simp only [withPens, settermprop, call, onto, List.append_assoc]

theorem altscreen_onto (alt : Bool) :
    (s.onto g e cs).altscreen alt = (s.altscreen alt).onto g e cs := by
  cases alt with
  | true => simp [altscreen, settermprop, erase, call, onto, screenRect]
  | false => simp [altscreen, settermprop, call, onto]

theorem reset_onto (hard : Bool) :
    (s.onto g e cs).reset hard = (s.reset hard).onto g
      (e.select fun _ => some (if s.isUtf8 then .utf8 else .usascii)) cs := by
  cases hard with
  | true =>
    simp [reset, settermprop, erase, call, withPens, onto, screenRect, Decoders.select]
  | false => simp [reset, settermprop, call, withPens, onto, Decoders.select]

theorem alignmentTest_onto : (s.onto g e cs).alignmentTest = s.alignmentTest.onto g e cs := by
  unfold alignmentTest
  refine List.foldl_hom (fun t : VTermState => t.onto g e cs) fun t row => ?_
  exact List.foldl_hom (fun t : VTermState => t.onto g e cs) fun t col => call_onto t g e cs _

theorem setMouse_onto (num : ℕ) (val : Bool) :
    (s.onto g e cs).setMouse num val = (s.setMouse num val).onto g e cs := by
  unfold setMouse
  dsimp only
  rw [← call_onto]
  split
  · rfl
  · rfl

theorem setMode_onto (num : ℕ) (val : Bool) :
    (s.onto g e cs).setMode num val = (s.setMode num val).onto g e cs := by
  unfold setMode
  split_ifs
  · rfl
  · rfl
  · rfl

theorem setDecMode_onto (num : ℕ) (val : Bool) :
    (s.onto g e cs).setDecMode num val = (s.setDecMode num val).onto g e cs := by
  unfold setDecMode
  split
  · rfl
  · exact settermprop_onto s g e cs _
  · exact updatecursor_onto { s with
      mode := { s.mode with origin := val }
      pos := ⟨if val then s.scrollregionStart else 0, 0⟩ } g e cs s.pos true
  · rfl
  · exact settermprop_onto { s with mode := { s.mode with cursorBlink := val } } g e cs _
  · exact settermprop_onto { s with mode := { s.mode with cursorVisible := val } } g e cs _
  · exact setMouse_onto s g e cs _ val
  · exact setMouse_onto s g e cs _ val
  · exact setMouse_onto s g e cs _ val
  · rfl
  · rfl
  · rfl
  · exact altscreen_onto s g e cs val
  · exact savecursor_onto s g e cs val
  · rw [altscreen_onto]
    exact savecursor_onto (s.altscreen val) g e cs val
  · rfl

theorem eraseInDisplay_onto (val : ℕ) :
    (s.onto g e cs).eraseInDisplay val = (s.eraseInDisplay val).onto g e cs := by
  unfold eraseInDisplay
  simp only [onto_pos, onto_cols, onto_rows, erase_onto, ite_onto]
  rfl

theorem eraseInLine_onto (val : ℕ) :
    (s.onto g e cs).eraseInLine val = (s.eraseInLine val).map fun t => t.onto g e cs := by
  unfold eraseInLine
  rw [Option.map_map]
  change (s.eraseInLineCols val).map _ = _
  congr 1
  funext cols
  simp only [Function.comp_apply, onto_pos, erase_onto]
  split
  · rfl
  · rfl

theorem tabClear_onto (val : ℤ) :
    (s.onto g e cs).tabClear val = (s.tabClear val).map fun t => t.onto g e cs := by
  unfold tabClear
  split_ifs
  · rfl
  · refine congrArg some ?_
    exact List.foldl_hom (fun t : VTermState => t.onto g e cs) fun t col => rfl
  · rfl
  · rfl

theorem setCursorShape_onto (val : ℤ) :
    (s.onto g e cs).setCursorShape val = (s.setCursorShape val).onto g e cs := by
  unfold setCursorShape
  dsimp only
  rw [← settermprop_onto, ← settermprop_onto]
  rfl

/-- But for DECSTR, the cases of on_csi leave the text memory alone. -/
theorem csiCase_onto (args : List ℕ) {f : CsiFunction} (hf : f ≠ .decstr) :
    (s.onto g e cs).csiCase args f = (s.csiCase args f).map fun t => t.onto g e cs := by
  have hscroll := fun rect downward rightward =>
    congrArg some (scroll_onto s g e cs rect downward rightward)
  cases f with
  | decstr => contradiction
  | ich => exact hscroll _ _ _
  | il => exact hscroll _ _ _
  | dl => exact hscroll _ _ _
  | dch => exact hscroll _ _ _
  | su => exact hscroll _ _ _
  | sd => exact hscroll _ _ _
  | cht => exact congrArg some (tab_onto s g e cs _ _)
  | cbt => exact congrArg some (tab_onto s g e cs _ _)
  | ed => exact congrArg some (eraseInDisplay_onto s g e cs _)
  | el => exact eraseInLine_onto s g e cs _
  | ech => exact congrArg some (erase_onto s g e cs _)
  | tbc => exact tabClear_onto s g e cs _
  | sm | rm =>
    refine congrArg some ?_
    split
    · rfl
    · exact setMode_onto s g e cs _ _
  | decSm | decRm =>
    refine congrArg some ?_
    split
    · rfl
    · exact setDecMode_onto s g e cs _ _
  | sgr => exact congrArg some (withPens_onto s g e cs _)
  | decscusr => exact congrArg some (setCursorShape_onto s g e cs _)
  | save => exact congrArg some (savecursor_onto s g e cs true)
  | restore => exact congrArg some (savecursor_onto s g e cs false)
  | _ => rfl

theorem clampCursor_onto : (s.onto g e cs).clampCursor = s.clampCursor.onto g e cs := rfl

/-- Other slots of the decoders get a new encoding; the last glyph stays. -/
def Selects (f : VTermState → VTermState) : Prop :=
  ∃ pick, ∀ g e cs, f (s.onto g e cs) = (f s).onto g (e.select pick) cs

variable {s}

theorem selects_of_onto {f : VTermState → VTermState}
    (h : ∀ g e cs, f (s.onto g e cs) = (f s).onto g e cs) : s.Selects f := ⟨fun _ => none, h⟩

variable (s)

theorem selects_designate (i : Fin 4) (designation : UInt8) :
    s.Selects fun s => s.designate i designation := by
  unfold designate
  cases lookupEncoding designation with
  | none => exact selects_of_onto fun g e cs => rfl
  | some enc =>
    refine ⟨Function.update (fun _ => none) i (some enc), fun g e cs => ?_⟩
    have hupdate : Function.update e.encoding i ((e.encoding i).select enc) =
        (e.select (Function.update (fun _ => none) i (some enc))).encoding := by
      funext j
      by_cases hj : j = i
      · subst hj
        simp [Decoders.select]
      · simp [Decoders.select, hj]
    unfold onto
    dsimp only
    rw [hupdate]
    rfl

theorem selects_hardReset : s.Selects hardReset := by
  refine ⟨fun _ => some (if s.isUtf8 then .utf8 else .usascii), fun g e cs => ?_⟩
  unfold hardReset
  dsimp only
  rw [reset_onto, ← call_onto]
  rfl

theorem selects_onEscape (bytes : List UInt8) : s.Selects fun s => s.onEscape bytes := by
  unfold onEscape
  split
  · exact selects_of_onto fun g e cs => alignmentTest_onto s g e cs
  · exact selects_designate s 0 _
  · exact selects_designate s 1 _
  · exact selects_designate s 2 _
  · exact selects_designate s 3 _
  · exact selects_of_onto fun g e cs => savecursor_onto s g e cs true
  · exact selects_of_onto fun g e cs => savecursor_onto s g e cs false
  · exact selects_of_onto fun g e cs => rfl
  · exact selects_of_onto fun g e cs => rfl
  · exact selects_hardReset s
  · exact selects_of_onto fun g e cs => rfl
  · exact selects_of_onto fun g e cs => rfl
  · exact selects_of_onto fun g e cs => rfl

theorem selects_onOsc (command : List UInt8) : s.Selects fun s => s.onOsc command := by
  apply selects_of_onto
  intro g e cs
  unfold onOsc
  split
  · rw [settermprop_onto, settermprop_onto]
  · exact settermprop_onto s g e cs _
  · exact settermprop_onto s g e cs _
  · rfl

theorem selects_onCsi (csi : CsiSequence) : s.Selects fun s => s.onCsi csi := by
  unfold onCsi
  cases csi.function with
  | none => exact selects_of_onto fun g e cs => rfl
  | some f =>
    by_cases hf : f = .decstr
    · subst hf
      refine ⟨fun _ => some (if s.isUtf8 then .utf8 else .usascii), fun g e cs => ?_⟩
      change ((s.onto g e cs).reset false).clampCursor.updatecursor _ true = _
      rw [reset_onto, clampCursor_onto]
      exact updatecursor_onto (s.reset false).clampCursor g _ cs s.pos true
    · apply selects_of_onto
      intro g e cs
      rw [Option.bind_some, Option.bind_some, csiCase_onto s g e cs csi.args hf]
      cases s.csiCase csi.args f with
      | none => rfl
      | some t => exact updatecursor_onto t.clampCursor g e cs s.pos true

/-- Every callback but text. -/
theorem selects_stateCall {c : ParserCall} (hc : ∀ bytes, c ≠ .text bytes) :
    s.Selects fun s => s.stateCall c := by
  cases c with
  | text bytes => exact absurd rfl (hc bytes)
  | control c => exact selects_of_onto fun g e cs => onControl_onto s g e cs c
  | escape str => exact selects_onEscape s str
  | csi str command => exact selects_onCsi s (parseCsi str command)
  | osc str => exact selects_onOsc s str
  | dcs str => exact selects_of_onto fun g e cs => rfl

end Onto

end VTermState

end Jterm.Vterm
