import Jterm.Vterm.Webvterm

/-!
The cursor and the margins stay on the screen. Every function of the state keeps the
margins and asks only for scrolls inside the screen; on_csi clamps the cursor, so that
what is left to ask of a run is where the margins are set, when origin mode is on, and
what is printed, restored and resized without a bound.
-/
namespace Jterm.Vterm

open Runs

def VTermRect.InsideOf (rect : VTermRect) (rows cols : ℤ) : Prop :=
  0 ≤ rect.startRow ∧ rect.endRow ≤ rows ∧ 0 ≤ rect.startCol ∧ rect.endCol ≤ cols

/-- A call that scrolls inside the screen and does not resize it. -/
def ScreenCall.Inside (rows cols : ℤ) : ScreenCall → Prop
  | .scrollrect rect _ _ => rect.InsideOf rows cols
  | .resize _ _ => False
  | _ => True

/-- A region that is not empty and fits; -1 stands for the last row. -/
def MarginsFit (rows start bottom : ℤ) : Prop :=
  0 ≤ start ∧ start < (if -1 < bottom then bottom else rows) ∧
    (if -1 < bottom then bottom else rows) ≤ rows

instance (rows start bottom : ℤ) : Decidable (MarginsFit rows start bottom) :=
  inferInstanceAs (Decidable (_ ∧ _))

/-- DECSTBM keeps a region of the whole screen as an unbounded one. -/
theorem MarginsFit.unbounded {rows start bottom : ℤ} (h : MarginsFit rows start bottom)
    (hrows : 0 < rows) :
    MarginsFit rows start (if start = 0 ∧ bottom = rows then -1 else bottom) := by
  split
  · unfold MarginsFit
    rw [if_neg (by omega)]
    omega
  · exact h

/-- All of the state but the cursor, at a size of `n` rows and columns. -/
structure Framed (n : ℤ × ℤ) (rows cols start bottom : ℤ) (origin : Bool)
    (calls : List ScreenCall) : Prop where
  size : (rows, cols) = n
  rows_pos : 0 < rows
  cols_pos : 0 < cols
  margins : MarginsFit rows start bottom
  bounded : origin = true → -1 < bottom
  inside : ∀ c ∈ calls, c.Inside rows cols

namespace VTermState

variable {n : ℤ × ℤ}

def FrameInv (s : VTermState) (n : ℤ × ℤ) : Prop :=
  Framed n s.rows s.cols s.scrollregionStart s.scrollregionEnd s.mode.origin s.calls

def PosInside (s : VTermState) : Prop :=
  0 ≤ s.pos.row ∧ s.pos.row < s.rows ∧ 0 ≤ s.pos.col ∧ s.pos.col < s.cols

def CursorInv (s : VTermState) (n : ℤ × ℤ) : Prop := s.FrameInv n ∧ s.PosInside

/-- `SCROLLREGION_END` of a state whose margins fit. -/
theorem FrameInv.bottom {s : VTermState} (h : s.FrameInv n) :
    0 ≤ s.scrollregionStart ∧ s.scrollregionStart < s.scrollregionBottom ∧
      s.scrollregionBottom ≤ s.rows := h.margins

theorem FrameInv.call {s : VTermState} {c : ScreenCall} (h : s.FrameInv n)
    (hc : c.Inside s.rows s.cols) : (s.call c).FrameInv n := by
  refine ⟨h.size, h.rows_pos, h.cols_pos, h.margins, h.bounded, ?_⟩
  intro d hd
  rcases List.mem_append.mp hd with hold | hnew
  · exact h.inside d hold
  · rw [List.mem_singleton.mp hnew]
    exact hc

theorem FrameInv.scroll {s : VTermState} {rect : VTermRect} (h : s.FrameInv n)
    (hrect : rect.InsideOf s.rows s.cols) (downward rightward : ℤ) :
    (s.scroll rect downward rightward).FrameInv n := by
  unfold VTermState.scroll
  split
  · exact h
  · exact h.call hrect

theorem scroll_pos (s : VTermState) (rect : VTermRect) (downward rightward : ℤ) :
    (s.scroll rect downward rightward).pos = s.pos ∧
      (s.scroll rect downward rightward).rows = s.rows ∧
        (s.scroll rect downward rightward).cols = s.cols := by
  unfold VTermState.scroll
  split
  · exact ⟨rfl, rfl, rfl⟩
  · exact ⟨rfl, rfl, rfl⟩

theorem CursorInv.scroll {s : VTermState} {rect : VTermRect} (h : s.CursorInv n)
    (hrect : rect.InsideOf s.rows s.cols) (downward rightward : ℤ) :
    (s.scroll rect downward rightward).CursorInv n := by
  refine ⟨h.1.scroll hrect downward rightward, ?_⟩
  obtain ⟨hpos, hrows, hcols⟩ := scroll_pos s rect downward rightward
  unfold PosInside
  rw [hpos, hrows, hcols]
  exact h.2

theorem FrameInv.updatecursor {s : VTermState} (h : s.FrameInv n) (oldpos : VTermPos)
    (cancelPhantom : Bool) : (s.updatecursor oldpos cancelPhantom).FrameInv n := by
  unfold VTermState.updatecursor
  split
  · exact h
  · exact FrameInv.call (s := { s with atPhantom := _ }) h trivial

theorem CursorInv.updatecursor {s : VTermState} (h : s.CursorInv n) (oldpos : VTermPos)
    (cancelPhantom : Bool) : (s.updatecursor oldpos cancelPhantom).CursorInv n := by
  refine ⟨h.1.updatecursor oldpos cancelPhantom, ?_⟩
  unfold VTermState.updatecursor
  split
  · exact h.2
  · exact h.2

theorem CursorInv.putglyph {s : VTermState} (h : s.CursorInv n) (chars : List ℕ) (width : ℤ)
    (pos : VTermPos) : (s.putglyph chars width pos).CursorInv n :=
  ⟨FrameInv.call (c := .putglyph chars width pos) h.1 trivial, h.2⟩

theorem FrameInv.erase {s : VTermState} (h : s.FrameInv n) (rect : VTermRect) :
    (s.erase rect).FrameInv n := FrameInv.call (c := .erase rect) h trivial

theorem FrameInv.settermprop {s : VTermState} (h : s.FrameInv n) (prop : TermProp) :
    (s.settermprop prop).FrameInv n := FrameInv.call (c := .settermprop prop) h trivial

/-- The margins and the rows from the cursor down are on the screen. -/
theorem scrollregion_inside {s : VTermState} (h : s.FrameInv n) :
    s.scrollregion.InsideOf s.rows s.cols :=
  ⟨h.bottom.1, h.bottom.2.2, Int.le_refl 0, Int.le_refl s.cols⟩

theorem linesBelow_inside {s : VTermState} (h : s.CursorInv n) :
    s.linesBelow.InsideOf s.rows s.cols :=
  ⟨h.2.1, h.1.bottom.2.2, Int.le_refl 0, Int.le_refl s.cols⟩

theorem lineRight_inside {s : VTermState} (h : s.CursorInv n) :
    s.lineRight.InsideOf s.rows s.cols :=
  ⟨h.2.1, h.2.2.1, h.2.2.2.1, Int.le_refl s.cols⟩

theorem CursorInv.linefeed {s : VTermState} (h : s.CursorInv n) : s.linefeed.CursorInv n := by
  unfold VTermState.linefeed
  split
  · exact h.scroll (scrollregion_inside h.1) 1 0
  · split
    · refine ⟨h.1, ?_, ?_, h.2.2.2⟩
      · have := h.2.1
        dsimp only
        omega
      · dsimp only
        omega
    · exact h

theorem CursorInv.carriageReturn {s : VTermState} (h : s.CursorInv n) :
    s.carriageReturn.CursorInv n := ⟨h.1, h.2.1, h.2.2.1, Int.le_refl 0, h.1.cols_pos⟩

theorem CursorInv.reverseIndex {s : VTermState} (h : s.CursorInv n) : s.reverseIndex.CursorInv n := by
  unfold VTermState.reverseIndex
  split
  · exact h.scroll (scrollregion_inside h.1) (-1) 0
  · split
    · have hrow := h.2.2.1
      refine ⟨h.1, ?_, ?_, h.2.2.2⟩
      · dsimp only
        omega
      · dsimp only
        omega
    · exact h

theorem tabLoop_bounds (s : VTermState) (steps : ℕ) {col : ℤ} (h : 0 ≤ col ∧ col < s.cols) :
    0 ≤ s.tabLoop 1 steps col ∧ s.tabLoop 1 steps col < s.cols := by
  induction steps generalizing col with
  | zero => exact h
  | succ steps ih =>
    unfold tabLoop
    split
    · split
      · omega
      · exact ih (by omega)
    · exact h

theorem CursorInv.tab {s : VTermState} (h : s.CursorInv n) : (s.tab 1 1).CursorInv n := by
  obtain ⟨hframe, hrow, hrows, hcol⟩ := h
  exact ⟨hframe, hrow, hrows, tabLoop_bounds s s.cols.toNat hcol⟩

theorem CursorInv.backspace {s : VTermState} (h : s.CursorInv n) :
    (if 0 < s.pos.col then { s with pos := { s.pos with col := s.pos.col - 1 } } else s).CursorInv n := by
  split
  · obtain ⟨hframe, hrow, hrows, hcol, hcols⟩ := h
    refine ⟨hframe, hrow, hrows, ?_, ?_⟩
    · dsimp only
      omega
    · dsimp only
      omega
  · exact h

theorem CursorInv.newline {s : VTermState} (h : s.CursorInv n) :
    (if s.linefeed.mode.newline then s.linefeed.carriageReturn else s.linefeed).CursorInv n := by
  split
  · exact h.linefeed.carriageReturn
  · exact h.linefeed

theorem CursorInv.control {s t : VTermState} {c : UInt8} (h : s.CursorInv n)
    (ht : s.control c = some t) : t.CursorInv n := by
  unfold VTermState.control at ht
  split at ht
  case h_14 => contradiction
  all_goals obtain rfl := Option.some.inj ht
  · exact ⟨h.1.call trivial, h.2⟩
  · exact h.backspace
  · exact h.tab
  · exact h.newline
  · exact h.newline
  · exact h.newline
  · exact h.carriageReturn
  · exact h
  · exact h
  · exact h.linefeed
  · exact h.linefeed.carriageReturn
  · exact h
  · exact h.reverseIndex

theorem CursorInv.onControl {s : VTermState} (h : s.CursorInv n) (c : UInt8) :
    (s.onControl c).CursorInv n := by
  unfold VTermState.onControl
  split
  · exact h
  · rename_i t ht
    exact (h.control ht).updatecursor s.pos true

theorem storeCombineChars_inv {s : VTermState} (h : s.CursorInv n) (i : ℕ) (chars : List ℕ) :
    (s.storeCombineChars i chars).CursorInv n := by
  have hstore : ∀ {s : VTermState} (i c : ℕ), s.CursorInv n → (s.storeCombine i c).CursorInv n := by
    intro s i c hs
    unfold storeCombine
    split
    · exact hs
    · exact hs
  induction chars generalizing s i with
  | nil => exact hstore i 0 h
  | cons c chars ih => exact ih (hstore i c h) (i + 1)

theorem storeCombineChars_pos (s : VTermState) (i : ℕ) (chars : List ℕ) :
    (s.storeCombineChars i chars).pos = s.pos := by
  have hstore : ∀ (s : VTermState) (i c : ℕ), (s.storeCombine i c).pos = s.pos := by
    intro s i c
    unfold storeCombine
    split
    · rfl
    · rfl
  induction chars generalizing s i with
  | nil => exact hstore s i 0
  | cons c chars ih => rw [storeCombineChars, ih, hstore]

theorem CursorInv.combineSplit {s : VTermState} (h : s.CursorInv n) (codepoints : List ℕ) :
    (s.combineSplit codepoints).1.CursorInv n := by
  unfold VTermState.combineSplit
  split
  · have hstored := storeCombineChars_inv h s.combineString.length
      (codepoints.takeWhile unicodeIsCombining)
    exact ⟨hstored.1.call trivial, hstored.2⟩
  · exact h

/-- The column a glyph is put in: a new line begins behind the phantom column. -/
def glyphCol (s : VTermState) : ℤ := if s.atPhantom then 0 else s.pos.col

/-- A glyph of negative width (a C1 control or DEL as text) is not put in column 0. -/
def GlyphFits (s : VTermState) (glyph : List ℕ × Bool) : Prop := 0 ≤ s.glyphCol + glyphWidth glyph.1

theorem CursorInv.wrapPhantom {s : VTermState} (h : s.CursorInv n) : s.wrapPhantom.CursorInv n := by
  unfold VTermState.wrapPhantom
  split
  · exact h.linefeed.carriageReturn
  · exact h

theorem wrapPhantom_col (s : VTermState) : s.wrapPhantom.pos.col = s.glyphCol := by
  unfold VTermState.wrapPhantom glyphCol
  split
  · rfl
  · rfl

theorem CursorInv.insertRoom {s : VTermState} (h : s.CursorInv n) : s.insertRoom.CursorInv n := by
  unfold VTermState.insertRoom
  split
  · exact h.scroll (lineRight_inside h) 0 (-1)
  · exact h

theorem insertRoom_pos (s : VTermState) : s.insertRoom.pos = s.pos := by
  unfold VTermState.insertRoom
  split
  · exact (scroll_pos s _ 0 (-1)).1
  · rfl

theorem CursorInv.saveGlyph {s : VTermState} (h : s.CursorInv n) (chars : List ℕ) (last : Bool) :
    (s.saveGlyph chars last).CursorInv n := by
  unfold VTermState.saveGlyph
  split
  · exact storeCombineChars_inv h 0 chars
  · exact h

theorem saveGlyph_pos (s : VTermState) (chars : List ℕ) (last : Bool) :
    (s.saveGlyph chars last).pos = s.pos := by
  unfold VTermState.saveGlyph
  split
  · exact storeCombineChars_pos s 0 chars
  · rfl

theorem CursorInv.advance {s : VTermState} {width : ℤ} (h : s.CursorInv n)
    (hwidth : 0 ≤ s.pos.col + width) : (s.advance width).CursorInv n := by
  unfold VTermState.advance
  split
  · split
    · exact h
    · exact h
  · rename_i hcols
    exact ⟨h.1, h.2.1, h.2.2.1, hwidth, by dsimp only; omega⟩

theorem CursorInv.putGlyph {s : VTermState} {glyph : List ℕ × Bool} (h : s.CursorInv n)
    (hfits : s.GlyphFits glyph) : (s.glyphStep glyph).CursorInv n := by
  have hroom := h.wrapPhantom.insertRoom
  unfold glyphStep VTermState.putGlyph
  apply CursorInv.advance
  · exact (hroom.putglyph _ _ _).saveGlyph glyph.1 glyph.2
  · rw [saveGlyph_pos]
    change 0 ≤ s.wrapPhantom.insertRoom.pos.col + glyphWidth glyph.1
    rw [insertRoom_pos, wrapPhantom_col]
    exact hfits

instance (s : VTermState) (glyph : List ℕ × Bool) : Decidable (s.GlyphFits glyph) :=
  inferInstanceAs (Decidable (_ ≤ _))

/-- Where the glyphs of a run begin, and its code points from there. -/
def textStart (s : VTermState) (bytes : List UInt8) : VTermState × List ℕ :=
  let slot := s.textSlot (bytes.headD 0)
  let (codepoints, _, inst) := decode (s.encodingAt slot) bytes
  (s.setEncodingAt slot inst).combineSplit codepoints

/-- All glyphs of a run fit where they are put. -/
def TextFits (s : VTermState) (bytes : List UInt8) : Prop :=
  AllSteps glyphStep GlyphFits (s.textStart bytes).1 (markLast (glyphs (s.textStart bytes).2))

instance (s : VTermState) (bytes : List UInt8) : Decidable (s.TextFits bytes) :=
  inferInstanceAs (Decidable (AllSteps _ _ _ _))

theorem CursorInv.onText {s : VTermState} {bytes : List UInt8} (h : s.CursorInv n)
    (hfits : s.TextFits bytes) : (s.onText bytes).1.CursorInv n := by
  have hset : ∀ slot inst, (s.setEncodingAt slot inst).CursorInv n := by
    intro slot inst
    cases slot with
    | set i => exact h
    | utf8 => exact h
  have hstart : (s.textStart bytes).1.CursorInv n := (hset _ _).combineSplit _
  have hrun := invariant_run glyphStep (fun s g (hs : s.CursorInv n) hg => hs.putGlyph hg) hstart
    hfits
  exact hrun.updatecursor s.pos false

theorem FrameInv.withPens {s : VTermState} (h : s.FrameInv n) (f : Pens → Pens) :
    (s.withPens f).FrameInv n := by
  refine ⟨h.size, h.rows_pos, h.cols_pos, h.margins, h.bounded, ?_⟩
  intro c hc
  rcases List.mem_append.mp hc with hold | hnew
  · exact h.inside c hold
  · obtain ⟨attr, -, rfl⟩ := List.mem_map.mp hnew
    trivial

theorem CursorInv.savecursor {s : VTermState} (h : s.CursorInv n) :
    (s.savecursor true).CursorInv n := by
  have hsaved : CursorInv { s with
      savedPos := s.pos
      savedMode := ⟨s.mode.cursorVisible, s.mode.cursorBlink, s.mode.cursorShape⟩ } n := h
  exact ⟨hsaved.1.withPens fun p => p.savepen true, h.2⟩

theorem FrameInv.restorecursor {s : VTermState} (h : s.FrameInv n) :
    (s.savecursor false).FrameInv n := by
  unfold VTermState.savecursor
  simp only [Bool.false_eq_true, if_false]
  apply FrameInv.updatecursor
  apply FrameInv.withPens
  apply FrameInv.settermprop
  apply FrameInv.settermprop
  apply FrameInv.settermprop
  exact h

/-- Restoring a cursor that is on the screen. -/
theorem CursorInv.restorecursor {s : VTermState} (h : s.CursorInv n)
    (hsaved : 0 ≤ s.savedPos.row ∧ s.savedPos.row < s.rows ∧ 0 ≤ s.savedPos.col ∧
      s.savedPos.col < s.cols) : (s.savecursor false).CursorInv n := by
  refine ⟨h.1.restorecursor, ?_⟩
  unfold VTermState.savecursor VTermState.updatecursor
  simp only [Bool.false_eq_true, if_false]
  split
  · exact hsaved
  · exact hsaved

theorem FrameInv.altscreen {s : VTermState} (h : s.FrameInv n) (alt : Bool) :
    (s.altscreen alt).FrameInv n := by
  have hprop := h.settermprop (.altscreen alt)
  unfold VTermState.altscreen
  dsimp only
  split
  · apply FrameInv.erase
    exact hprop
  · exact hprop

/-- A reset sets the margins, whatever they were. -/
theorem frameInv_reset {s : VTermState} (hsize : (s.rows, s.cols) = n) (hrows : 0 < s.rows)
    (hcols : 0 < s.cols) (hinside : ∀ c ∈ s.calls, c.Inside s.rows s.cols) (hard : Bool) :
    (s.reset hard).FrameInv n := by
  have hfresh : FrameInv { s with
      scrollregionStart := 0
      scrollregionEnd := -1
      mode :=
        { keypad := false, cursor := false, autowrap := true, insert := false, newline := false,
          cursorVisible := true, cursorBlink := true, cursorShape := 1, altScreen := false,
          origin := false }
      tabstops := (List.range s.cols.toNat).map fun col => col % 8 = 0 } n := by
    refine ⟨hsize, hrows, hcols, ?_, fun horigin => by simp at horigin, hinside⟩
    unfold MarginsFit
    dsimp only
    rw [if_neg (by omega)]
    omega
  have hprops := (((hfresh.withPens Pens.resetpen).settermprop (.cursorVisible true)).settermprop
    (.cursorBlink true)).settermprop (.cursorShape 1)
  unfold VTermState.reset
  dsimp only
  split
  · apply FrameInv.erase
    exact hprops
  · exact hprops

theorem FrameInv.reset {s : VTermState} (h : s.FrameInv n) (hard : Bool) :
    (s.reset hard).FrameInv n := frameInv_reset h.size h.rows_pos h.cols_pos h.inside hard

theorem CursorInv.hardReset {s : VTermState} (h : s.CursorInv n) : s.hardReset.CursorInv n := by
  have hreset := FrameInv.call
    (c := .movecursor (s.reset true).pos s.pos (s.reset true).mode.cursorVisible)
    (h.1.reset true) trivial
  exact ⟨hreset, Int.le_refl 0, h.1.rows_pos, Int.le_refl 0, h.1.cols_pos⟩

theorem CursorInv.alignmentTest {s : VTermState} (h : s.CursorInv n) : s.alignmentTest.CursorInv n := by
  have hrow : ∀ (row : ℕ) (s : VTermState), s.CursorInv n →
      ((List.range s.cols.toNat).foldl
        (fun s (col : ℕ) => s.putglyph [0x45] 1 ⟨row, col⟩) s).CursorInv n := fun row s hs =>
    invariant_of_step _ (CursorInv · n)
      (fun t (col : ℕ) (ht : t.CursorInv n) => ht.putglyph [0x45] 1 ⟨row, col⟩) _ hs
  exact invariant_of_step _ (CursorInv · n) (fun t row ht => hrow row t ht) _ h

/-- ESC 8 restores a cursor that is still on the screen. -/
def EscapeFits (s : VTermState) (str : List UInt8) : Prop :=
  str.head? = some 0x38 →
    0 ≤ s.savedPos.row ∧ s.savedPos.row < s.rows ∧ 0 ≤ s.savedPos.col ∧ s.savedPos.col < s.cols

instance (s : VTermState) (str : List UInt8) : Decidable (s.EscapeFits str) :=
  inferInstanceAs (Decidable (_ → _))

theorem CursorInv.onEscape {s : VTermState} {str : List UInt8} (h : s.CursorInv n)
    (hfits : s.EscapeFits str) : (s.onEscape str).CursorInv n := by
  have hdesignate : ∀ i designation, (s.designate i designation).CursorInv n := by
    intro i designation
    unfold designate
    split
    · exact h
    · exact h
  unfold VTermState.onEscape
  split
  · exact h.alignmentTest
  · exact hdesignate 0 _
  · exact hdesignate 1 _
  · exact hdesignate 2 _
  · exact hdesignate 3 _
  · exact h.savecursor
  · exact h.restorecursor (hfits rfl)
  · exact h
  · exact h
  · exact h.hardReset
  · exact h
  · exact h
  · exact h

theorem CursorInv.onOsc {s : VTermState} (h : s.CursorInv n) (command : List UInt8) :
    (s.onOsc command).CursorInv n := by
  have hprop : ∀ {s : VTermState} (prop : TermProp), s.CursorInv n → (s.settermprop prop).CursorInv n :=
    fun prop hs => ⟨hs.1.settermprop prop, hs.2⟩
  unfold VTermState.onOsc
  split
  · exact hprop _ (hprop _ h)
  · exact hprop _ h
  · exact hprop _ h
  · exact h

/-- The margins DECSTBM sets fit the screen, and are no unbounded ones while origin mode is on;
origin mode is only switched on over margins that are set. -/
def CsiFits (s : VTermState) (csi : CsiSequence) : Prop :=
  let start := csiArgOr (csi.args.getD 0 0) 1 - 1
  let bottom := secondArg csi.args (-1)
  (csi.function = some .decstbm → MarginsFit s.rows start bottom ∧
    (s.mode.origin = true → -1 < bottom ∧ ¬ (start = 0 ∧ bottom = s.rows))) ∧
  (csi.function = some .decSm → csiArg (csi.args.getD 0 0) = 6 → -1 < s.scrollregionEnd)

instance (s : VTermState) (csi : CsiSequence) : Decidable (s.CsiFits csi) :=
  inferInstanceAs (Decidable ((_ → _) ∧ (_ → _)))

theorem FrameInv.eraseInDisplay {s : VTermState} (h : s.FrameInv n) (val : ℕ) :
    (s.eraseInDisplay val).FrameInv n := by
  unfold VTermState.eraseInDisplay
  split
  · dsimp only
    split
    · apply FrameInv.erase
      split
      · exact h.erase _
      · exact h
    · split
      · exact h.erase _
      · exact h
  · split
    · apply FrameInv.erase
      split
      · exact h.erase _
      · exact h
    · split
      · exact h.erase _
      · exact h

theorem FrameInv.eraseInLine {s t : VTermState} {val : ℕ} (h : s.FrameInv n)
    (ht : s.eraseInLine val = some t) : t.FrameInv n := by
  obtain ⟨⟨startCol, endCol⟩, -, rfl⟩ := Option.map_eq_some_iff.mp ht
  dsimp only
  split
  · exact h.erase _
  · exact h

theorem FrameInv.tabClear {s t : VTermState} {val : ℤ} (h : s.FrameInv n)
    (ht : s.tabClear val = some t) : t.FrameInv n := by
  unfold VTermState.tabClear at ht
  split_ifs at ht
  · rw [← Option.some.inj ht]
    exact h
  · rw [← Option.some.inj ht]
    exact invariant_of_step (fun (s : VTermState) (col : ℕ) => s.clearColTabstop col)
      (FrameInv · n) (fun t col ht => ht) _ h
  · rw [← Option.some.inj ht]
    exact h

theorem FrameInv.setMode {s : VTermState} (h : s.FrameInv n) (num : ℕ) (val : Bool) :
    (s.setMode num val).FrameInv n := by
  unfold VTermState.setMode
  split_ifs
  · exact h
  · exact h
  · exact h

theorem FrameInv.setOrigin {s : VTermState} {val : Bool} (h : s.FrameInv n)
    (hval : val = true → -1 < s.scrollregionEnd) : (s.setOrigin val).FrameInv n := by
  apply FrameInv.updatecursor
  exact ⟨h.size, h.rows_pos, h.cols_pos, h.margins, hval, h.inside⟩

theorem FrameInv.setMouse {s : VTermState} (h : s.FrameInv n) (num : ℕ) (val : Bool) :
    (s.setMouse num val).FrameInv n := by
  unfold VTermState.setMouse
  dsimp only
  split
  · exact FrameInv.call (s := { s with mouse := _ }) (c := .setmousefunc val) h trivial
  · exact FrameInv.call (c := .setmousefunc val) h trivial

theorem FrameInv.anySavecursor {s : VTermState} (h : s.FrameInv n) (save : Bool) :
    (s.savecursor save).FrameInv n := by
  cases save with
  | true =>
    have hsaved : FrameInv { s with
        savedPos := s.pos
        savedMode := ⟨s.mode.cursorVisible, s.mode.cursorBlink, s.mode.cursorShape⟩ } n := h
    exact hsaved.withPens fun p => p.savepen true
  | false => exact h.restorecursor

theorem FrameInv.setDecMode {s : VTermState} {num : ℕ} {val : Bool} (h : s.FrameInv n)
    (hval : num = 6 → val = true → -1 < s.scrollregionEnd) : (s.setDecMode num val).FrameInv n := by
  unfold VTermState.setDecMode
  split
  · exact h
  · exact h.settermprop _
  · exact h.setOrigin (hval rfl)
  · exact h
  · apply FrameInv.settermprop
    exact h
  · apply FrameInv.settermprop
    exact h
  · exact h.setMouse _ val
  · exact h.setMouse _ val
  · exact h.setMouse _ val
  · exact h
  · exact h
  · exact h
  · exact h.altscreen val
  · exact h.anySavecursor val
  · exact (h.altscreen val).anySavecursor val
  · exact h

theorem FrameInv.setScrollregion {s : VTermState} {args : List ℕ} (h : s.FrameInv n)
    (hmargins : MarginsFit s.rows (csiArgOr (args.getD 0 0) 1 - 1) (secondArg args (-1)))
    (horigin : s.mode.origin = true → -1 < secondArg args (-1) ∧
      ¬ (csiArgOr (args.getD 0 0) 1 - 1 = 0 ∧ secondArg args (-1) = s.rows)) :
    (s.setScrollregion args).FrameInv n := by
  refine ⟨h.size, h.rows_pos, h.cols_pos, hmargins.unbounded h.rows_pos, ?_, h.inside⟩
  intro hon
  obtain ⟨hbounded, hpart⟩ := horigin hon
  unfold VTermState.setScrollregion
  dsimp only
  rw [if_neg hpart]
  exact hbounded

theorem FrameInv.moveTo {s : VTermState} (h : s.FrameInv n) (row col : ℤ) :
    (s.moveTo row col).FrameInv n := h

theorem FrameInv.tab {s : VTermState} (h : s.FrameInv n) (count direction : ℤ) :
    (s.tab count direction).FrameInv n := h

theorem FrameInv.setCursorShape {s : VTermState} (h : s.FrameInv n) (val : ℤ) :
    (s.setCursorShape val).FrameInv n := by
  unfold VTermState.setCursorShape
  apply FrameInv.settermprop
  apply FrameInv.settermprop
  refine ⟨h.size, h.rows_pos, h.cols_pos, h.margins, ?_, h.inside⟩
  intro hon
  apply h.bounded
  dsimp only at hon
  split_ifs at hon
  · exact hon
  · exact hon
  · exact hon
  · exact hon
  · exact hon

theorem FrameInv.csiCase {s t : VTermState} {csi : CsiSequence} {f : CsiFunction}
    (h : s.CursorInv n) (hfits : s.CsiFits csi) (hf : csi.function = some f)
    (ht : s.csiCase csi.args f = some t) : t.FrameInv n := by
  have hframe := h.1
  cases f with
  | el => exact hframe.eraseInLine ht
  | tbc => exact hframe.tabClear ht
  | ich =>
    rw [← Option.some.inj ht]
    exact hframe.scroll (lineRight_inside h) _ _
  | dch =>
    rw [← Option.some.inj ht]
    exact hframe.scroll (lineRight_inside h) _ _
  | il =>
    rw [← Option.some.inj ht]
    exact hframe.scroll (linesBelow_inside h) _ _
  | dl =>
    rw [← Option.some.inj ht]
    exact hframe.scroll (linesBelow_inside h) _ _
  | su =>
    rw [← Option.some.inj ht]
    exact hframe.scroll (scrollregion_inside hframe) _ _
  | sd =>
    rw [← Option.some.inj ht]
    exact hframe.scroll (scrollregion_inside hframe) _ _
  | ed =>
    rw [← Option.some.inj ht]
    exact hframe.eraseInDisplay _
  | ech =>
    rw [← Option.some.inj ht]
    exact hframe.erase _
  | sm =>
    rw [← Option.some.inj ht]
    split
    · exact hframe
    · exact hframe.setMode _ true
  | rm =>
    rw [← Option.some.inj ht]
    split
    · exact hframe
    · exact hframe.setMode _ false
  | decSm =>
    rw [← Option.some.inj ht]
    split
    · exact hframe
    · exact hframe.setDecMode fun hsix _ => hfits.2 hf hsix
  | decRm =>
    rw [← Option.some.inj ht]
    split
    · exact hframe
    · exact hframe.setDecMode fun _ hfalse => by simp at hfalse
  | sgr =>
    rw [← Option.some.inj ht]
    exact hframe.withPens _
  | decstr =>
    rw [← Option.some.inj ht]
    exact hframe.reset false
  | decscusr =>
    rw [← Option.some.inj ht]
    exact hframe.setCursorShape _
  | decstbm =>
    rw [← Option.some.inj ht]
    exact hframe.setScrollregion (hfits.1 hf).1 (hfits.1 hf).2
  | save =>
    rw [← Option.some.inj ht]
    exact hframe.anySavecursor true
  | restore =>
    rw [← Option.some.inj ht]
    exact hframe.restorecursor
  | _ =>
    -- what is left moves the cursor only
    rw [← Option.some.inj ht]
    exact hframe

theorem FrameInv.clampCursor {s : VTermState} (h : s.FrameInv n) : s.clampCursor.CursorInv n := by
  refine ⟨h, ?_⟩
  have hrows := h.rows_pos
  have hcols := h.cols_pos
  unfold PosInside VTermState.clampCursor
  dsimp only
  refine ⟨?_, ?_, by omega, by omega⟩
  · split
    · rename_i horigin
      have hbounded := h.bounded horigin
      obtain ⟨hstart, hlt, hle⟩ := h.margins
      rw [if_pos hbounded] at hlt
      omega
    · omega
  · split
    · rename_i horigin
      have hbounded := h.bounded horigin
      obtain ⟨hstart, hlt, hle⟩ := h.margins
      rw [if_pos hbounded] at hlt hle
      omega
    · omega

theorem CursorInv.onCsi {s : VTermState} {csi : CsiSequence} (h : s.CursorInv n)
    (hfits : s.CsiFits csi) : (s.onCsi csi).CursorInv n := by
  unfold VTermState.onCsi
  split
  · exact h
  · rename_i t ht
    obtain ⟨f, hf, hcase⟩ := Option.bind_eq_some_iff.mp ht
    have hframe := FrameInv.csiCase h hfits hf hcase
    exact hframe.clampCursor.updatecursor s.pos true

/-- The condition on one callback of the parser. -/
def CallFits (s : VTermState) : ParserCall → Prop
  | .text bytes => s.TextFits bytes
  | .escape str => s.EscapeFits str
  | .csi str command => s.CsiFits (parseCsi str command)
  | _ => True

instance (s : VTermState) : ∀ c, Decidable (s.CallFits c)
  | .text bytes => inferInstanceAs (Decidable (s.TextFits bytes))
  | .control _ => .isTrue trivial
  | .escape str => inferInstanceAs (Decidable (s.EscapeFits str))
  | .csi str command => inferInstanceAs (Decidable (s.CsiFits (parseCsi str command)))
  | .osc _ => .isTrue trivial
  | .dcs _ => .isTrue trivial

theorem CursorInv.stateCall {s : VTermState} {c : ParserCall} (h : s.CursorInv n)
    (hfits : s.CallFits c) : (s.stateCall c).CursorInv n := by
  cases c with
  | text bytes => exact h.onText hfits
  | control c => exact h.onControl c
  | escape str => exact h.onEscape hfits
  | csi str command => exact h.onCsi hfits
  | osc str => exact h.onOsc str
  | dcs str => exact h

/-- Margins that fit the new size too. -/
def ResizeFits (s : VTermState) (c r : ℤ) : Prop :=
  1 ≤ c ∧ 1 ≤ r ∧ MarginsFit r s.scrollregionStart s.scrollregionEnd

instance (s : VTermState) (c r : ℤ) : Decidable (s.ResizeFits c r) :=
  inferInstanceAs (Decidable (_ ∧ _))

theorem updatecursor_frame (s : VTermState) (oldpos : VTermPos) (cancelPhantom : Bool) :
    let t := s.updatecursor oldpos cancelPhantom
    t.pos = s.pos ∧ t.rows = s.rows ∧ t.cols = s.cols ∧
      t.scrollregionStart = s.scrollregionStart ∧ t.scrollregionEnd = s.scrollregionEnd ∧
      t.mode = s.mode := by
  unfold VTermState.updatecursor
  split
  · simp
  · simp [VTermState.call]

theorem fitSize_spec (s : VTermState) {rows cols : ℤ} (hrows : 1 ≤ rows) (hcols : 1 ≤ cols)
    (hrow : 0 ≤ s.pos.row) (hcol : 0 ≤ s.pos.col) :
    (s.fitSize rows cols).PosInside ∧
      (s.fitSize rows cols).rows = rows ∧ (s.fitSize rows cols).cols = cols ∧
      (s.fitSize rows cols).scrollregionStart = s.scrollregionStart ∧
      (s.fitSize rows cols).scrollregionEnd = s.scrollregionEnd ∧
      (s.fitSize rows cols).mode = s.mode := by
  unfold VTermState.fitSize PosInside
  dsimp only
  split_ifs
  all_goals
    dsimp only at *
    refine ⟨?_, rfl, rfl, rfl, rfl, rfl⟩
    omega

/-- A resize keeps the margins and clamps the cursor, phantom or not. -/
theorem CursorInv.onResize {s : VTermState} {c r : ℤ} (h : s.CursorInv n)
    (hfits : s.ResizeFits c r) : CursorInv { s.onResize r c with calls := [] } (r, c) := by
  obtain ⟨hcols, hrows, hmargins⟩ := hfits
  obtain ⟨hinside, htrows, htcols, htstart, htend, htmode⟩ :=
    fitSize_spec s hrows hcols h.2.1 h.2.2.2.1
  obtain ⟨hpos, hurows, hucols, hustart, huend, humode⟩ :=
    updatecursor_frame ((s.fitSize r c).call (.resize r c)) s.pos true
  have hsize : (s.onResize r c).rows = r ∧ (s.onResize r c).cols = c := ⟨by
    exact hurows.trans htrows, hucols.trans htcols⟩
  have hframe : Framed (r, c) (s.onResize r c).rows (s.onResize r c).cols
      (s.onResize r c).scrollregionStart (s.onResize r c).scrollregionEnd
      (s.onResize r c).mode.origin [] := by
    have hstart : (s.onResize r c).scrollregionStart = s.scrollregionStart := hustart.trans htstart
    have hend : (s.onResize r c).scrollregionEnd = s.scrollregionEnd := huend.trans htend
    have hmode : (s.onResize r c).mode = s.mode := humode.trans htmode
    rw [hsize.1, hsize.2, hstart, hend, hmode]
    exact ⟨rfl, by omega, by omega, hmargins, h.1.bounded, by simp⟩
  refine ⟨hframe, ?_⟩
  have hsame : (s.onResize r c).pos = (s.fitSize r c).pos := hpos
  unfold PosInside at hinside ⊢
  rw [htrows, htcols] at hinside
  dsimp only
  rw [hsize.1, hsize.2, hsame]
  exact hinside

end VTermState

end Jterm.Vterm
