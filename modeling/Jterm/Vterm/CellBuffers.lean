import Jterm.Vterm.Prescroll
import Jterm.Vterm.TextBuffers

/-!
The characters of the cells of a screen, and runs of the terminal that keep to all the fixed
buffers of text.
-/
namespace Jterm.Vterm

open Runs VTermState

/-- The loop of vterm_screen_get_cell: the characters it copies, or `none` where it goes on behind
the last. -/
def copyChars : List ℕ → Option (List ℕ)
  | [] => none
  | c :: chars => if c = 0 then some [0] else (copyChars chars).map (c :: ·)

/-- vterm_screen_get_cell stays inside the cell. -/
def ScreenCell.Readable (cell : ScreenCell) : Prop :=
  cell.chars.length = maxCharsPerCell ∧ copyChars cell.chars ≠ none

/-- The last character of the cell is zero. -/
structure ScreenCell.Ends (cell : ScreenCell) : Prop where
  length : cell.chars.length = maxCharsPerCell
  last : cell.chars[maxCharsPerCell - 1]? = some 0

theorem copyChars_isSome {chars : List ℕ} (h : 0 ∈ chars) : copyChars chars ≠ none := by
  induction chars with
  | nil => exact absurd h List.not_mem_nil
  | cons c chars ih =>
    unfold copyChars
    split
    · simp
    · rename_i hnonzero
      have hrest : 0 ∈ chars := (List.mem_cons.mp h).resolve_left (Ne.symm hnonzero)
      rw [ne_eq, Option.map_eq_none_iff]
      exact ih hrest

theorem ScreenCell.Ends.readable {cell : ScreenCell} (h : cell.Ends) : cell.Readable :=
  ⟨h.length, copyChars_isSome (List.mem_of_getElem? h.last)⟩

theorem ends_blank (pen : VTermPen) : (ScreenCell.blank pen).Ends := ⟨rfl, rfl⟩

/-- Only the first character is written. -/
theorem ScreenCell.Ends.set {cell : ScreenCell} (h : cell.Ends) (c : ℕ) (pen : VTermPen) :
    ScreenCell.Ends ⟨cell.chars.set 0 c, pen⟩ :=
  ⟨(List.length_set ..).trans h.length, (List.getElem?_set_ne (by decide)).trans h.last⟩

/-- A glyph with room for a zero leaves the last character as it is or makes it zero. -/
theorem ScreenCell.Ends.write {cell : ScreenCell} (h : cell.Ends) {chars : List ℕ}
    (hfew : chars.length < maxCharsPerCell) (pen : VTermPen) :
    ScreenCell.Ends ⟨writeChars cell.chars chars, pen⟩ := by
  have hlength := h.length
  have hlast := h.last
  unfold writeChars
  dsimp only
  rw [List.take_of_length_le (by omega), if_pos hfew]
  constructor
  · rw [List.length_append, List.length_cons, List.length_drop]
    omega
  · dsimp only
    rw [List.getElem?_append_right (by omega)]
    by_cases hfull : chars.length = maxCharsPerCell - 1
    · rw [hfull, Nat.sub_self]
      rfl
    · rw [show maxCharsPerCell - 1 - chars.length = maxCharsPerCell - 2 - chars.length + 1 by omega,
        List.getElem?_cons_succ, List.getElem?_drop,
        show chars.length + 1 + (maxCharsPerCell - 2 - chars.length) = maxCharsPerCell - 1 by omega]
      exact hlast

namespace VTermScreen

variable {s t : VTermScreen}

/-- Every cell of both buffers ends in a zero. -/
def CellsEnd (s : VTermScreen) : Prop :=
  ∀ row col, s.Inside row col → (s.buffer0 row col).Ends ∧ (s.buffer1 row col).Ends

/-- Every cell shown can be read. -/
def CellsReadable (s : VTermScreen) : Prop :=
  ∀ row col, s.Inside row col → (s.buffer row col).Readable

theorem CellsEnd.buffer (h : s.CellsEnd) {row col : ℤ} (hin : s.Inside row col) :
    (s.buffer row col).Ends := by
  unfold VTermScreen.buffer
  split
  · exact (h row col hin).2
  · exact (h row col hin).1

theorem CellsEnd.readable (h : s.CellsEnd) : s.CellsReadable := fun _ _ hin =>
  (h.buffer hin).readable

/-- The screen with other cells in the buffer that is shown. -/
theorem CellsEnd.setBuffer (h : s.CellsEnd) {buffer : ℤ → ℤ → ScreenCell}
    (hbuffer : ∀ row col, s.Inside row col → (buffer row col).Ends) :
    (s.setBuffer buffer).CellsEnd := by
  unfold VTermScreen.setBuffer
  split
  · exact fun row col hin => ⟨(h row col hin).1, hbuffer row col hin⟩
  · exact fun row col hin => ⟨hbuffer row col hin, (h row col hin).2⟩

theorem CellsEnd.putglyph (h : s.CellsEnd) {chars : List ℕ}
    (hfew : chars.length < maxCharsPerCell) (width : ℤ) (pos : VTermPos) :
    (s.putglyph chars width pos).CellsEnd := by
  unfold VTermScreen.putglyph
  split
  · have hwritten : (s.writeGlyph chars pos).CellsEnd := by
      apply h.setBuffer
      intro row col hin
      dsimp only
      split
      · exact (h.buffer hin).write hfew _
      · exact h.buffer hin
    have hmarked : ((s.writeGlyph chars pos).markGap pos width).CellsEnd := by
      apply hwritten.setBuffer
      intro row col hin
      dsimp only
      split
      · exact (hwritten.buffer hin).set _ _
      · exact hwritten.buffer hin
    exact hmarked
  · exact h

theorem CellsEnd.eraseInternal (h : s.CellsEnd) (rect : VTermRect) :
    (eraseInternal rect s).CellsEnd := by
  apply h.setBuffer
  intro row col hin
  dsimp only
  split
  · exact (h.buffer hin).set _ _
  · exact h.buffer hin

/-- A row of cells is moved inside the screen. -/
theorem CellsEnd.moveRow (h : s.CellsEnd) {row col srcRow srcCol n : ℤ}
    (hsrc : ∀ k, 0 ≤ k → k < n → s.Inside srcRow (srcCol + k)) :
    (s.moveRow row col srcRow srcCol n).CellsEnd := by
  unfold VTermScreen.moveRow
  dsimp only
  split
  · apply h.setBuffer
    intro r c hin
    split
    · rename_i hmoved
      have hfirst := hsrc 0 (Int.le_refl 0) (by omega)
      rw [Int.add_zero] at hfirst
      rw [if_pos hfirst]
      exact h.buffer (hsrc (c - col) (by omega) (by omega))
    · exact h.buffer hin
  · exact h

theorem CellsEnd.moverectInternal (h : s.CellsEnd) {dest src : VTermRect}
    (hfits : s.MoveFits dest src) : (moverectInternal dest src s).CellsEnd := by
  have hrows : ∀ start : VTermScreen, start.CellsEnd → start.size = s.size →
      ((moveRows dest src).foldl (fun t row => if row < 0 then t
        else t.moveRow row dest.startCol (row + (src.startRow - dest.startRow)) src.startCol
          (src.endCol - src.startCol)) start).CellsEnd := by
    intro start hstart hsize
    refine (List.foldlRecOn (motive := fun t : VTermScreen => t.CellsEnd ∧ t.size = s.size)
      (moveRows dest src) _ ⟨hstart, hsize⟩ ?_).1
    rintro t ⟨ht, hsize⟩ row hrow
    split
    · exact ⟨ht, hsize⟩
    · refine ⟨ht.moveRow ?_, (size_moveRow ..).trans hsize⟩
      intro k hk hwidth
      rw [inside_of_size hsize]
      exact ((hfits.2 row hrow).2 k hk hwidth).2
  unfold VTermScreen.moverectInternal
  rw [foldl_prescroll]
  exact hrows _ h rfl

theorem CellsEnd.damageOnly (h : s.CellsEnd) (hdamage : s.DamageOnly t) : t.CellsEnd := by
  rw [hdamage]
  exact h

theorem CellsEnd.scrollrect (h : s.CellsEnd) {rect : VTermRect} {downward rightward : ℤ}
    (hinside : rect.InsideOf s.rows s.cols) :
    (s.scrollrect rect downward rightward).CellsEnd := by
  refine CellsEnd.damageOnly ?_ (damageOnly_scrollrect s rect downward rightward)
  unfold vtermScrollRect
  split
  · exact h.eraseInternal rect
  · rename_i haway
    exact (h.moverectInternal (hinside.moveFits haway)).eraseInternal _

theorem CellsEnd.settermprop (h : s.CellsEnd) (prop : TermProp) :
    (s.settermprop prop).CellsEnd := by
  unfold VTermScreen.settermprop
  split
  · dsimp only
    split
    · exact h
    · exact h
  · exact h
  · exact h

theorem CellsEnd.resize (h : s.CellsEnd) (rows cols : ℤ) : (s.resize rows cols).CellsEnd := by
  have hcell : ∀ (buffer : ℤ → ℤ → ScreenCell) (row col : ℤ),
      (s.Inside row col → (buffer row col).Ends) →
        (s.reallocBuffer buffer rows cols row col).Ends := by
    intro buffer row col hbuffer
    unfold reallocBuffer
    split
    · rename_i hkept
      exact hbuffer hkept.1
    · exact ends_blank s.pen
  have hresized : CellsEnd { s with
      buffer0 := s.reallocBuffer s.buffer0 rows cols
      buffer1 := s.reallocBuffer s.buffer1 rows cols
      rows := rows
      cols := cols } := fun row col _ =>
    ⟨hcell s.buffer0 row col fun hin => (h row col hin).1,
      hcell s.buffer1 row col fun hin => (h row col hin).2⟩
  refine hresized.damageOnly ?_
  unfold VTermScreen.resize
  dsimp only
  split_ifs
  all_goals rfl

end VTermScreen

/-- A scroll has its rectangle on the screen. -/
def ScreenCall.ScrollsInside (s : VTermScreen) : ScreenCall → Prop
  | .scrollrect rect _ _ => rect.InsideOf s.rows s.cols
  | _ => True

instance (s : VTermScreen) : ∀ c : ScreenCall, Decidable (c.ScrollsInside s)
  | .scrollrect rect _ _ =>
    inferInstanceAs (Decidable (0 ≤ rect.startRow ∧ rect.endRow ≤ s.rows ∧ 0 ≤ rect.startCol ∧
      rect.endCol ≤ s.cols))
  | .putglyph _ _ _ | .movecursor _ _ _ | .erase _ | .setpenattr _ | .settermprop _
  | .setmousefunc _ | .bell | .resize _ _ | .flushDamage => .isTrue trivial

namespace VTermScreen

variable {s : VTermScreen}

theorem CellsEnd.exec (h : s.CellsEnd) {c : ScreenCall} (hfew : c.FewChars)
    (hinside : c.ScrollsInside s) : (s.exec c).CellsEnd := by
  cases c with
  | putglyph chars width pos => exact h.putglyph hfew width pos
  | scrollrect rect downward rightward => exact h.scrollrect hinside
  | erase rect => exact h.eraseInternal rect
  | settermprop prop => exact h.settermprop prop
  | resize rows cols => exact h.resize rows cols
  | flushDamage => exact h.damageOnly (damageOnly_flushDamage s)
  | movecursor | setpenattr | setmousefunc | bell => exact h

/-- One call after the other. -/
theorem CellsEnd.run (h : s.CellsEnd) {cs : List ScreenCall} (hfew : ∀ c ∈ cs, c.FewChars)
    (hinside : AllSteps VTermScreen.exec (fun s c => c.ScrollsInside s) s cs) :
    (run VTermScreen.exec s cs).CellsEnd ∧
      AllSteps VTermScreen.exec (fun s _ => s.CellsReadable) s cs := by
  induction cs generalizing s with
  | nil => exact ⟨h, trivial⟩
  | cons c cs ih =>
    have hnext := h.exec (hfew c List.mem_cons_self) hinside.1
    obtain ⟨hrun, hsteps⟩ := ih hnext (fun d hd => hfew d (List.mem_cons_of_mem c hd)) hinside.2
    exact ⟨hrun, h.readable, hsteps⟩

end VTermScreen

/-- Between two events: the screen has done all that was asked for. -/
structure BuffersInv (d : Display) : Prop where
  allocated : d.state.CombineAllocated
  calls : d.state.calls = []
  cells : d.screen.CellsEnd

/-- The callbacks of the parser in an event. -/
def parserCallsOf (t : VTerm) : VTermEvent → List ParserCall
  | .recv bytes => recvCalls t bytes
  | .flush | .resize _ _ => []

/-- The text of an event fits the buffers and its scrolls are on the screen. -/
def KeepsBuffers (t : VTerm) (e : VTermEvent) : Prop :=
  AllSteps Display.call (fun d c => d.state.BuffersFit c) t.display (parserCallsOf t e) ∧
    AllSteps VTermScreen.exec (fun s c => c.ScrollsInside s) t.display.screen (screenCalls t e)

instance (t : VTerm) (e : VTermEvent) : Decidable (KeepsBuffers t e) :=
  inferInstanceAs (Decidable (_ ∧ _))

/-- In an event nothing is stored or read outside a buffer of text: by no on_text, and by no
vterm_screen_get_cell before, between and behind the calls of the screen. -/
def BuffersSafe (t : VTerm) (e : VTermEvent) : Prop :=
  AllSteps Display.call (fun d c => d.state.TextSafe c) t.display (parserCallsOf t e) ∧
    AllSteps VTermScreen.exec (fun s _ => s.CellsReadable) t.display.screen (screenCalls t e) ∧
    (vtermStep t e).display.screen.CellsReadable

theorem VTermState.CombineAllocated.inv {s : VTermState} (h : s.CombineAllocated)
    (hcalls : s.calls = []) : s.BufferInv := by
  refine ⟨h, ?_⟩
  rw [hcalls]
  exact fun _ hc => absurd hc List.not_mem_nil

/-- Callbacks of the parser whose text fits. -/
theorem displayCalls_few {d : Display} {cs : List ParserCall}
    (hallocated : d.state.CombineAllocated) (hdrained : d.state.calls = [])
    (hfits : AllSteps Display.call (fun d c => d.state.BuffersFit c) d cs) :
    (∀ c ∈ displayCalls d cs, c.FewChars) ∧
      AllSteps Display.call (fun d c => d.state.TextSafe c) d cs ∧
      (run Display.call d cs).state.CombineAllocated ∧ (run Display.call d cs).state.calls = [] := by
  induction cs generalizing d with
  | nil => exact ⟨fun c hc => absurd hc List.not_mem_nil, trivial, hallocated, hdrained⟩
  | cons c cs ih =>
    obtain ⟨hfirst, hrest⟩ := hfits
    have hsame : { d.state with calls := [] } = d.state := by rw [← hdrained]
    obtain ⟨hnext, hsafe⟩ := (hallocated.inv hdrained).stateCall hfirst
    rw [← hsame] at hnext
    obtain ⟨hfew, hsteps, hrun⟩ := ih (d := d.call c) hnext.allocated rfl hrest
    refine ⟨?_, ⟨hsafe, hsteps⟩, hrun⟩
    intro e he
    rcases List.mem_append.mp he with hhere | hlater
    · exact hnext.calls e hhere
    · exact hfew e hlater

theorem few_onResize {s : VTermState} (hs : s.calls = []) (c r : ℤ) :
    (∀ e ∈ (s.onResize r c).calls, e.FewChars) ∧ (s.onResize r c).combineChars = s.combineChars := by
  constructor
  · intro e he
    rcases onResize_calls hs r c with hcalls | ⟨pos, oldpos, visible, hcalls⟩
    · rw [hcalls] at he
      rw [List.mem_singleton.mp he]
      trivial
    · rw [hcalls] at he
      rcases List.mem_pair.mp he with rfl | rfl
      · trivial
      · trivial
  · unfold VTermState.onResize VTermState.updatecursor
    have hfit : (s.fitSize r c).combineChars = s.combineChars := by
      unfold VTermState.fitSize
      dsimp only
      split_ifs
      all_goals rfl
    split
    · exact hfit
    · exact hfit

theorem resize_state (t : VTerm) (c r : ℤ) :
    (vtermStep t (.resize c r)).display.state =
      { VTermState.onResize { t.display.state with calls := [] } r c with calls := [] } := rfl

theorem vtermStep_buffers {t : VTerm} {e : VTermEvent} (h : BuffersInv t.display)
    (hkeeps : KeepsBuffers t e) : BuffersInv (vtermStep t e).display ∧ BuffersSafe t e := by
  obtain ⟨htext, hscrolls⟩ := hkeeps
  have hevent : (∀ c ∈ screenCalls t e, c.FewChars) ∧
      AllSteps Display.call (fun d c => d.state.TextSafe c) t.display (parserCallsOf t e) ∧
      (vtermStep t e).display.state.CombineAllocated ∧ (vtermStep t e).display.state.calls = [] := by
    cases e with
    | recv bytes =>
      obtain ⟨hfew, hsafe, hstate⟩ := displayCalls_few h.allocated h.calls htext
      refine ⟨hfew, hsafe, ?_⟩
      change (webvtermRecv t bytes).display.state.CombineAllocated ∧
        (webvtermRecv t bytes).display.state.calls = []
      rw [webvtermRecv_display]
      exact hstate
    | flush =>
      refine ⟨?_, trivial, h.allocated, h.calls⟩
      intro c hc
      rw [List.mem_singleton.mp hc]
      trivial
    | resize c r =>
      obtain ⟨hfew, hchars⟩ := few_onResize (s := { t.display.state with calls := [] }) rfl c r
      refine ⟨hfew, trivial, ?_⟩
      rw [resize_state]
      refine ⟨?_, rfl⟩
      unfold VTermState.CombineAllocated
      dsimp only
      rw [hchars]
      exact h.allocated
  obtain ⟨hfew, hsafe, hallocated, hcalls⟩ := hevent
  obtain ⟨hcells, hreads⟩ := h.cells.run hfew hscrolls
  rw [← vtermStep_screen] at hcells
  exact ⟨⟨hallocated, hcalls, hcells⟩, hsafe, hreads, hcells.readable⟩

/-- A function of the state whose glyphs fit, run with the screen behind it. -/
theorem buffersInv_apply {d : Display} {f : VTermState → VTermState}
    (hf : (f { d.state with calls := [] }).BufferInv)
    (hscrolls : AllSteps VTermScreen.exec (fun s c => c.ScrollsInside s) d.screen
      (f { d.state with calls := [] }).calls)
    (hcells : d.screen.CellsEnd) : BuffersInv (d.apply f) := by
  unfold Display.apply
  dsimp only
  generalize f { d.state with calls := [] } = s at hf hscrolls ⊢
  exact ⟨hf.allocated, rfl, (hcells.run hf.calls hscrolls).1⟩

theorem ScreenCall.Safe.scrollsInside {s : VTermScreen} {c : ScreenCall} (h : c.Safe s) :
    c.ScrollsInside s := by
  cases c with
  | scrollrect rect downward rightward => exact h.1
  | _ => trivial

/-- Where the cursor stays on the screen, so do the scrolls. -/
theorem buffersInv_of_cursorInv {d : Display} {f : VTermState → VTermState} {n : ℤ × ℤ}
    (hallocated : d.state.CombineAllocated)
    (hmakes : Makes FewCharsCalls { d.state with calls := [] } (f { d.state with calls := [] }))
    (hf : (f { d.state with calls := [] }).CursorInv n) (hsize : d.screen.size = n)
    (hcells : d.screen.CellsEnd) : BuffersInv (d.apply f) := by
  have hdrained : VTermState.BufferInv { d.state with calls := [] } :=
    ⟨hallocated, fun _ hc => absurd hc List.not_mem_nil⟩
  have hsafe := (displayInv_apply hf hsize).2
  exact buffersInv_apply (hdrained.makes hmakes)
    (allSteps_mono VTermScreen.exec (fun _ _ hc => ScreenCall.Safe.scrollsInside hc) _ _ hsafe) hcells

theorem buffersInv_webvtermInit {cols rows : ℤ} (hcols : 1 ≤ cols) (hrows : 1 ≤ rows)
    (lowMemory : ℤ → ScreenCell) (stack : List ℕ) :
    BuffersInv (webvtermInit cols rows lowMemory stack).display := by
  have hblank : (VTermScreen.new rows cols lowMemory).CellsEnd := fun _ _ _ =>
    ⟨ends_blank .zero, ends_blank .zero⟩
  have happly := buffersInv_of_cursorInv (d := ⟨.new rows cols stack, .new rows cols lowMemory⟩)
    (f := fun s => s.reset true) (.inl List.length_replicate) (makes_reset _ true)
    (cursorInv_reset_new hcols hrows stack) rfl hblank
  unfold webvtermInit
  dsimp only
  generalize Display.apply _ _ = d at happly ⊢
  exact ⟨happly.allocated, happly.calls,
    happly.cells.damageOnly (VTermScreen.damageOnly_flushDamage _)⟩

/-- A run that meets the condition stores and reads nothing outside the buffers of text. -/
theorem text_keeps_buffers {cols rows : ℤ} (hcols : 1 ≤ cols) (hrows : 1 ≤ rows)
    (lowMemory : ℤ → ScreenCell) (stack : List ℕ) {es : List VTermEvent}
    (hall : AllSteps vtermStep KeepsBuffers (webvtermInit cols rows lowMemory stack) es) :
    AllSteps vtermStep BuffersSafe (webvtermInit cols rows lowMemory stack) es := by
  have hinit := buffersInv_webvtermInit hcols hrows lowMemory stack
  generalize webvtermInit cols rows lowMemory stack = t at hall hinit ⊢
  induction es generalizing t with
  | nil => trivial
  | cons e es ih =>
    obtain ⟨hfirst, hrest⟩ := hall
    obtain ⟨hnext, hsafe⟩ := vtermStep_buffers hinit hfirst
    exact ⟨hsafe, ih _ hrest hnext⟩

/-- A letter and its accent, which arrives byte by byte. -/
theorem text_keeps_buffers_accent :
    AllSteps vtermStep BuffersSafe (webvtermInit 5 2 (fun _ => .blank .zero) [])
      [.recv [0x65], .recv [0xcc], .recv [0x81], .flush] := by
  have hall : AllSteps vtermStep KeepsBuffers (webvtermInit 5 2 (fun _ => .blank .zero) [])
      [.recv [0x65], .recv [0xcc], .recv [0x81], .flush] := by
    decide +kernel
  exact text_keeps_buffers (by decide) (by decide) _ _ hall

theorem not_buffersSafe {t : VTerm} {e : VTermEvent}
    (h : ¬ AllSteps Display.call (fun d c => d.state.TextSafe c) t.display (parserCallsOf t e)) :
    ¬ BuffersSafe t e := fun hsafe => h hsafe.1

/-- Three code points come out of two bytes behind a lead byte without its continuation, a letter
with six accents fills its cell, and one with seventeen loses an accent when the buffer grows. -/
theorem text_leaves_buffers :
    let t := webvtermInit 5 2 (fun _ => .blank .zero) []
    let letter := run vtermStep t [.recv [0x65]]
    let accents (n : ℕ) : List UInt8 := (List.replicate n [0xcc, 0x81]).flatten
    ¬ BuffersSafe (run vtermStep t [.recv [0xc3]]) (.recv [0xc3, 0x41]) ∧
      ¬ BuffersSafe letter (.recv (accents 6)) ∧
      ¬ BuffersSafe letter (.recv (accents 17)) := by
  intro t letter accents
  have hin : (vtermStep letter (.recv (accents 6))).display.screen.Inside 0 0 := by decide +kernel
  have hfull : copyChars
      ((vtermStep letter (.recv (accents 6))).display.screen.buffer 0 0).chars = none := by
    decide +kernel
  refine ⟨not_buffersSafe ?_, fun h => (h.2.2 0 0 hin).2 hfull, not_buffersSafe ?_⟩
  · decide +kernel
  · decide +kernel

end Jterm.Vterm
