import Jterm.Vterm.Damage
import Jterm.Vterm.TextRuns
import Mathlib.Data.List.Infix
import Mathlib.Data.List.TakeWhile

/-!
Two runs of text against one run of both. The glyphs of the second run that begin with a base
character are put as they are in one run; characters that combine with the last glyph of the
first put it a second time, over itself.
-/
namespace Jterm.Vterm

open Runs

/-! A glyph put twice in one place: the second time decides. -/

/-- The longer text covers the shorter one and the zero behind it. -/
theorem writeChars_writeChars (old : List ℕ) {first second : List ℕ}
    (h : (first.take maxCharsPerCell).length ≤ (second.take maxCharsPerCell).length) :
    writeChars (writeChars old first) second = writeChars old second := by
  unfold writeChars
  dsimp only
  generalize second.take maxCharsPerCell = chars at h ⊢
  generalize first.take maxCharsPerCell = covered at h ⊢
  by_cases hroom : chars.length < maxCharsPerCell
  · have hrest : chars.length + 1 - covered.length = chars.length - covered.length + 1 := by omega
    have hplace : covered.length + 1 + (chars.length - covered.length) = chars.length + 1 := by
      omega
    rw [if_pos hroom, if_pos hroom, if_pos (by omega), List.drop_append,
      List.drop_of_length_le (by omega), List.nil_append, hrest, List.drop_succ_cons,
      List.drop_drop, hplace]
  · rw [if_neg hroom, if_neg hroom]

namespace VTermScreen

variable (s : VTermScreen)

/-- The buffer with a glyph in it. -/
def glyphBuffer (buffer : ℤ → ℤ → ScreenCell) (chars : List ℕ) (width : ℤ) (pos : VTermPos) :
    ℤ → ℤ → ScreenCell := fun row col =>
  let cell := buffer row col
  if row = pos.row ∧ col = pos.col then
    { chars := writeChars cell.chars chars, pen := if chars = [] then cell.pen else s.pen }
  else if row = pos.row ∧ pos.col < col ∧ col < pos.col + width ∧ s.Inside row col then
    { cell with chars := cell.chars.set 0 wideGap }
  else cell

theorem setBuffer_damagerect (rect : VTermRect) (buffer : ℤ → ℤ → ScreenCell) :
    (s.damagerect rect).setBuffer buffer = (s.setBuffer buffer).damagerect rect := by
  unfold setBuffer damagerect
  dsimp only
  split
  · rfl
  · rfl

theorem pen_setBuffer (buffer : ℤ → ℤ → ScreenCell) : (s.setBuffer buffer).pen = s.pen := by
  unfold setBuffer
  split
  · rfl
  · rfl

theorem glyphBuffer_of_size {s t : VTermScreen} (hsize : t.size = s.size) (hpen : t.pen = s.pen) :
    t.glyphBuffer = s.glyphBuffer := by
  unfold glyphBuffer
  simp only [inside_of_size hsize, hpen]

theorem markGap_writeGlyph (chars : List ℕ) (width : ℤ) (pos : VTermPos) :
    (s.writeGlyph chars pos).markGap pos width =
      s.setBuffer (s.glyphBuffer s.buffer chars width pos) := by
  unfold markGap writeGlyph
  rw [buffer_setBuffer, setBuffer_setBuffer]
  congr 1
  funext row col
  unfold glyphBuffer
  simp only [inside_of_size (size_setBuffer s _)]
  by_cases hglyph : row = pos.row ∧ col = pos.col
  · rw [if_neg (by omega), if_pos hglyph, if_pos hglyph]
  · rw [if_neg hglyph, if_neg hglyph]

theorem glyphBuffer_glyphBuffer {first second : List ℕ} (hfirst : first ≠ []) (hsecond : second ≠ [])
    (h : (first.take maxCharsPerCell).length ≤ (second.take maxCharsPerCell).length)
    (buffer : ℤ → ℤ → ScreenCell) (width : ℤ) (pos : VTermPos) :
    s.glyphBuffer (s.glyphBuffer buffer first width pos) second width pos =
      s.glyphBuffer buffer second width pos := by
  funext row col
  unfold glyphBuffer
  dsimp only
  by_cases hglyph : row = pos.row ∧ col = pos.col
  · simp only [if_pos hglyph, if_neg hfirst, if_neg hsecond, writeChars_writeChars _ h]
  · simp only [if_neg hglyph]
    split
    · rw [List.set_set]
    · rfl

theorem damagerect_damagerect {rect : VTermRect} (h : 0 ≤ rect.startRow) :
    (s.damagerect rect).damagerect rect = s.damagerect rect := by
  unfold damagerect
  dsimp only
  congr 1
  by_cases hnone : s.damaged.startRow = -1
  · rw [if_pos hnone, if_neg (by omega)]
    unfold VTermRect.expand
    simp
  · have hsome : (s.damaged.expand rect).startRow ≠ -1 := by
      unfold VTermRect.expand
      dsimp only
      omega
    rw [if_neg hnone, if_neg hsome]
    unfold VTermRect.expand
    simp

/-- Over itself with more characters, a glyph is put as if it had been put with them at once. -/
theorem putglyph_putglyph {first second : List ℕ} (hfirst : first ≠ []) (hsecond : second ≠ [])
    (h : (first.take maxCharsPerCell).length ≤ (second.take maxCharsPerCell).length) (width : ℤ)
    (pos : VTermPos) :
    (s.putglyph first width pos).putglyph second width pos = s.putglyph second width pos := by
  unfold putglyph
  by_cases hinside : s.Inside pos.row pos.col
  · rw [if_pos hinside, if_pos hinside, markGap_writeGlyph]
    have hsize : ((s.setBuffer (s.glyphBuffer s.buffer first width pos)).damagerect
        ⟨pos.row, pos.row + 1, pos.col, pos.col + width⟩).size = s.size := by
      rw [size_damagerect, size_setBuffer]
    rw [if_pos ((inside_of_size hsize _ _).mpr hinside), markGap_writeGlyph, markGap_writeGlyph,
      glyphBuffer_of_size hsize (pen_setBuffer s _)]
    change (((s.setBuffer _).damagerect _).setBuffer
      (s.glyphBuffer (s.setBuffer _).buffer second width pos)).damagerect _ = _
    rw [setBuffer_damagerect, setBuffer_setBuffer, buffer_setBuffer,
      glyphBuffer_glyphBuffer s hfirst hsecond h, damagerect_damagerect _ hinside.1]
  · rw [if_neg hinside, if_neg hinside]

/-- The screen takes no more characters than a cell has. -/
theorem putglyph_take {chars chars' : List ℕ}
    (h : chars'.take maxCharsPerCell = chars.take maxCharsPerCell) (width : ℤ) (pos : VTermPos) :
    s.putglyph chars' width pos = s.putglyph chars width pos := by
  have hempty : chars' = [] ↔ chars = [] := by
    have hroom : maxCharsPerCell ≠ 0 := by decide
    have hiff := List.take_eq_nil_iff (l := chars) (k := maxCharsPerCell)
    rw [← h, List.take_eq_nil_iff] at hiff
    simpa only [hroom, false_or] using hiff
  have hwrite : ∀ old, writeChars old chars' = writeChars old chars := by
    intro old
    unfold writeChars
    rw [h]
  unfold putglyph writeGlyph
  simp only [hwrite, hempty]

end VTermScreen

/-! Glyphs of two runs. -/

namespace VTermState

theorem glyphs_cons (c : ℕ) (rest : List ℕ) :
    glyphs (c :: rest) =
      (c :: rest.takeWhile unicodeIsCombining) :: glyphs (rest.dropWhile unicodeIsCombining) := by
  induction rest generalizing c with
  | nil => rfl
  | cons next rest ih =>
    rw [glyphs, ih next]
    cases hnext : unicodeIsCombining next with
    | true => simp [hnext]
    | false => simp [hnext, ih next]

/-- What combines with the last glyph of the first run is part of it, the rest follows. -/
theorem glyphs_append {points : List ℕ} (hpoints : points ≠ []) (more : List ℕ) :
    ∃ front last, glyphs points = front ++ [last] ∧ last ≠ [] ∧ last ⊆ points ∧
      glyphs (points ++ more) = front ++ (last ++ more.takeWhile unicodeIsCombining) ::
        glyphs (more.dropWhile unicodeIsCombining) := by
  induction points with
  | nil => contradiction
  | cons c rest ih =>
    cases rest with
    | nil =>
      exact ⟨[], [c], rfl, List.cons_ne_nil c [], List.Subset.refl _, glyphs_cons c more⟩
    | cons next rest =>
      obtain ⟨front, last, hglyphs, hlast, hsubset, happend⟩ := ih (List.cons_ne_nil next rest)
      have hmore : last ⊆ c :: next :: rest :=
        fun x hx => List.mem_cons_of_mem c (hsubset hx)
      have hcons : ∀ {tail : List ℕ} {glyph : List ℕ} {others : List (List ℕ)},
          glyphs tail = glyph :: others → tail.headD 0 = next → glyphs (c :: tail) =
            if unicodeIsCombining next then (c :: glyph) :: others else [c] :: glyph :: others := by
        intro tail glyph others htail hhead
        rw [glyphs, htail, hhead]
      cases front with
      | nil =>
        rw [hcons hglyphs rfl, List.cons_append, hcons happend rfl]
        cases unicodeIsCombining next with
        | true =>
          refine ⟨[], c :: last, rfl, List.cons_ne_nil c last, ?_, rfl⟩
          exact List.cons_subset.mpr ⟨List.mem_cons_self, hmore⟩
        | false => exact ⟨[[c]], last, rfl, hlast, hmore, rfl⟩
      | cons glyph front =>
        rw [hcons hglyphs rfl, List.cons_append, hcons happend rfl]
        cases unicodeIsCombining next with
        | true => exact ⟨(c :: glyph) :: front, last, rfl, hlast, hmore, rfl⟩
        | false => exact ⟨[c] :: glyph :: front, last, rfl, hlast, hmore, rfl⟩

theorem run_markLast_append (s : VTermState) (front : List (List ℕ)) {more : List (List ℕ)}
    (hmore : more ≠ []) :
    run glyphStep s (markLast (front ++ more)) =
      run glyphStep (run glyphStep s (front.map fun glyph => (glyph, false))) (markLast more) := by
  induction front generalizing s with
  | nil => rfl
  | cons glyph front ih =>
    have hfollowed : (front ++ more).isEmpty = false := by
      rw [List.isEmpty_eq_false_iff]
      exact List.append_ne_nil_of_right_ne_nil front hmore
    rw [List.cons_append, markLast, hfollowed]
    exact ih (s.glyphStep (glyph, false))

theorem glyphWidth_append_combining (glyph : List ℕ) {chars : List ℕ}
    (h : ∀ c ∈ chars, unicodeIsCombining c = true) :
    glyphWidth (glyph ++ chars) = glyphWidth glyph := by
  have hzero : (chars.map unicodeWidth).sum = 0 := by
    induction chars with
    | nil => rfl
    | cons c chars ih =>
      rw [List.map_cons, List.sum_cons, unicodeWidth_of_combining (h c List.mem_cons_self), ih]
      · rfl
      · exact fun d hd => h d (List.mem_cons_of_mem c hd)
  unfold glyphWidth
  rw [List.map_append, List.sum_append, hzero, Int.add_zero]

theorem zero_not_mem_of_combining {chars : List ℕ} (h : ∀ c ∈ chars, unicodeIsCombining c = true) :
    0 ∉ chars := by
  intro hzero
  have := h 0 hzero
  contradiction

end VTermState

/-! The last glyph put again with what combines with it. -/

theorem takeWhile_of_zero_not_mem {chars : List ℕ} (h : 0 ∉ chars) :
    chars.takeWhile (· ≠ 0) = chars := by
  rw [List.takeWhile_eq_self_iff]
  intro c hc
  rw [decide_eq_true_eq]
  rintro rfl
  exact h hc

theorem take_take_append (n : ℕ) (front rest : List ℕ) :
    (front.take n ++ rest).take n = (front ++ rest).take n := by
  have hleft : n - min n front.length = n - front.length := by omega
  rw [List.take_append, List.take_append, List.take_take, Nat.min_self, List.length_take, hleft]

namespace SavedGlyph

variable {g : SavedGlyph}

theorem Alike.symm {g g' : SavedGlyph} (h : g.Alike g') : g'.Alike g :=
  ⟨h.allocated', h.allocated, h.string.symm, h.width.symm, h.pos.symm⟩

theorem Alike.trans {g g' g'' : SavedGlyph} (h : g.Alike g') (h' : g'.Alike g'') : g.Alike g'' :=
  ⟨h.allocated, h'.allocated', h'.string.trans h.string, h'.width.trans h.width,
    h'.pos.trans h.pos⟩

theorem zero_not_mem_string (g : SavedGlyph) : 0 ∉ g.string := by
  intro hzero
  have hne := List.mem_takeWhile_imp hzero
  simp at hne

theorem string_save (h : g.Allocated) {chars : List ℕ} (hchars : 0 ∉ chars) (pos : VTermPos) :
    (g.save chars pos).string = chars.take VTermState.combineCharsSize := by
  have hstored := string_storeCombineChars h 0 chars
  rw [List.take_zero, List.nil_append, takeWhile_of_zero_not_mem fun hzero =>
    hchars (List.mem_of_mem_take hzero)] at hstored
  exact hstored

theorem string_combine_eq (h : g.Allocated) {chars : List ℕ} (hchars : 0 ∉ chars) :
    (g.combine chars).string = (g.string ++ chars).take VTermState.combineCharsSize := by
  rw [string_combine h, takeWhile_of_zero_not_mem]
  intro hzero
  rcases List.mem_append.mp (List.mem_of_mem_take hzero) with hglyph | hmore
  · exact zero_not_mem_string g hglyph
  · exact hchars hmore

end SavedGlyph

theorem putglyph_of_prefix (s : VTermScreen) {first second : List ℕ} (hfirst : first ≠ [])
    (h : first <+: second) (width : ℤ) (pos : VTermPos) :
    (s.putglyph first width pos).putglyph second width pos = s.putglyph second width pos := by
  have hsecond : second ≠ [] := by
    rintro rfl
    exact hfirst (List.prefix_nil.mp h)
  have hlength := h.length_le
  apply VTermScreen.putglyph_putglyph s hfirst hsecond
  rw [List.length_take, List.length_take]
  omega

namespace VTermState

variable {s : VTermState} {x : VTermScreen}

theorem advance_call (s : VTermState) (c : ScreenCall) (width : ℤ) :
    (s.call c).advance width = (s.advance width).call c := by
  unfold advance
  change (if s.cols ≤ s.pos.col + width then if s.mode.autowrap then _ else s.call c else _) = _
  split_ifs
  · rfl
  · rfl
  · rfl

/-- The cursor behind a glyph, apart from what is put and saved. -/
def pastGlyph (s : VTermState) (width : ℤ) : VTermState :=
  s.wrapPhantom.insertRoom.advance width

theorem glyphStep_last (s : VTermState) (chars : List ℕ) :
    s.glyphStep (chars, true) =
      ((s.pastGlyph (glyphWidth chars)).putglyph chars (glyphWidth chars) s.glyphPos).onto
        (s.savedGlyph.save chars s.glyphPos) s.decoders [] := by
  have hsaved : ∀ t : VTermState, t.saveGlyph chars true =
      t.onto (t.savedGlyph.save chars t.pos) t.decoders [] :=
    fun t => saveGlyph_onto t t.savedGlyph t.decoders [] chars true
  have hstep := glyphStep_onto s s.savedGlyph s.decoders [] chars true
  rw [onto_self, if_pos rfl] at hstep
  rw [hstep]
  unfold glyphStep putGlyph
  dsimp only
  rw [hsaved, advance_onto, onto_onto, putglyph, advance_call]
  rfl

/-- A glyph that is put again with more behind it. -/
theorem similar_putglyph_putglyph (b : VTermState) {G : SavedGlyph → SavedGlyph → Prop}
    {E : Decoders → Decoders → Prop} {first second third : List ℕ} (hfirst : first ≠ [])
    (hstarts : first <+: third)
    (hsecond : second.take maxCharsPerCell = third.take maxCharsPerCell) (width : ℤ)
    (pos : VTermPos) {g g' : SavedGlyph} {e e' : Decoders} (hg : G g g') (he : E e e') :
    Similar G E x x (((b.putglyph first width pos).putglyph second width pos).onto g e [])
      ((b.putglyph third width pos).onto g' e' []) where
  rest := rfl
  glyph := hg
  decoders := he
  calls := by
    have hcalls : ∀ cs, run VTermScreen.exec x (b.calls ++ cs) =
        run VTermScreen.exec (run VTermScreen.exec x b.calls) cs :=
      run_append VTermScreen.exec x b.calls
    change run VTermScreen.exec x (b.calls ++ [.putglyph third width pos]) =
      run VTermScreen.exec x
        (b.calls ++ [.putglyph first width pos] ++ [.putglyph second width pos])
    rw [List.append_assoc, hcalls, hcalls]
    generalize run VTermScreen.exec x b.calls = current
    change current.putglyph third width pos =
      (current.putglyph first width pos).putglyph second width pos
    rw [VTermScreen.putglyph_take _ hsecond, putglyph_of_prefix current hfirst hstarts]

/-- No matter which decoders. -/
def AnyDecoders (_ _ : Decoders) : Prop := True

/-- A glyph and then what combines with it, against both at once. -/
theorem glyphStep_combineWith {s : VTermState} (h : s.savedGlyph.Allocated) {glyph more : List ℕ}
    (hglyph : glyph ≠ []) (hzero : 0 ∉ glyph) (hmore : ∀ c ∈ more, unicodeIsCombining c = true) :
    Similar SavedGlyph.Alike AnyDecoders x x ((s.glyphStep (glyph, true)).combineWith more)
      (s.glyphStep (glyph ++ more, true)) := by
  have hmorezero := zero_not_mem_of_combining hmore
  have hbothzero : 0 ∉ glyph ++ more := by
    rw [List.mem_append]
    exact not_or.mpr ⟨hzero, hmorezero⟩
  have hwidth := glyphWidth_append_combining glyph hmore
  have hsaved : (s.savedGlyph.save glyph s.glyphPos).Allocated := h.storeCombineChars 0 glyph
  have hstring : ((s.savedGlyph.save glyph s.glyphPos).combine more).string =
      (glyph ++ more).take VTermState.combineCharsSize := by
    rw [SavedGlyph.string_combine_eq hsaved hmorezero, SavedGlyph.string_save h hzero,
      take_take_append]
  rw [glyphStep_last, glyphStep_last, combineWith_onto, hwidth]
  apply similar_putglyph_putglyph _ hglyph (List.prefix_append glyph more)
  · rw [hstring, List.take_take]
    rfl
  · exact
      { allocated := hsaved.storeCombineChars _ more
        allocated' := h.storeCombineChars 0 (glyph ++ more)
        string := by rw [hstring, SavedGlyph.string_save h hbothzero]
        width := by
          rw [SavedGlyph.combine_width]
          exact hwidth
        pos := by
          rw [SavedGlyph.combine_pos]
          rfl }
  · trivial

theorem combineWith_combineWith {s : VTermState} (h : s.savedGlyph.Allocated) {chars more : List ℕ}
    (hchars : chars ≠ []) (hzero : 0 ∉ chars) (hmore : 0 ∉ more) :
    Similar SavedGlyph.Alike AnyDecoders x x ((s.combineWith chars).combineWith more)
      (s.combineWith (chars ++ more)) := by
  have hbothzero : 0 ∉ chars ++ more := by
    rw [List.mem_append]
    exact not_or.mpr ⟨hzero, hmore⟩
  have hcombine : ∀ chars, s.combineWith chars =
      (s.putglyph (s.savedGlyph.combine chars).string s.combineWidth s.combinePos).onto
        (s.savedGlyph.combine chars) s.decoders [] :=
    combineWith_onto s s.savedGlyph s.decoders []
  have hfirst := SavedGlyph.string_combine_eq h hzero
  have hallocated : (s.savedGlyph.combine chars).Allocated := h.storeCombineChars _ chars
  have hstring : ((s.savedGlyph.combine chars).combine more).string =
      (s.savedGlyph.combine (chars ++ more)).string := by
    rw [SavedGlyph.string_combine_eq hallocated hmore, hfirst,
      SavedGlyph.string_combine_eq h hbothzero, take_take_append, List.append_assoc]
  have hne : (s.savedGlyph.combine chars).string ≠ [] := by
    rw [hfirst]
    intro hnil
    rcases List.take_eq_nil_iff.mp hnil with hroom | happend
    · contradiction
    · exact hchars (List.append_eq_nil_iff.mp happend).2
  have hstarts : (s.savedGlyph.combine chars).string <+:
      (s.savedGlyph.combine (chars ++ more)).string := by
    rw [hfirst, SavedGlyph.string_combine_eq h hbothzero, ← List.append_assoc]
    exact (List.prefix_append _ more).take VTermState.combineCharsSize
  rw [hcombine, hcombine, combineWith_onto, SavedGlyph.combine_width, SavedGlyph.combine_pos]
  apply similar_putglyph_putglyph _ hne hstarts
  · rw [hstring]
  · exact
      { allocated := hallocated.storeCombineChars _ more
        allocated' := h.storeCombineChars _ (chars ++ more)
        string := hstring.symm
        width := by rw [SavedGlyph.combine_width, SavedGlyph.combine_width, SavedGlyph.combine_width]
        pos := by rw [SavedGlyph.combine_pos, SavedGlyph.combine_pos, SavedGlyph.combine_pos] }
  · trivial

theorem Similar.refl (h : s.savedGlyph.Allocated) : Similar SavedGlyph.Alike AnyDecoders x x s s where
  rest := rfl
  glyph := ⟨h, h, rfl, rfl, rfl⟩
  decoders := trivial
  calls := rfl

theorem Similar.trans {G G' G'' : SavedGlyph → SavedGlyph → Prop} {E E' : Decoders → Decoders → Prop}
    {x y z : VTermScreen} {s t u : VTermState} (hst : Similar G E x y s t)
    (htu : Similar G' E' y z t u) (hglyph : G'' s.savedGlyph u.savedGlyph) :
    Similar G'' AnyDecoders x z s u where
  rest := by
    rw [htu.rest, hst.rest]
  glyph := hglyph
  decoders := trivial
  calls := htu.calls.trans hst.calls

theorem Similar.run_front {G : SavedGlyph → SavedGlyph → Prop} {E : Decoders → Decoders → Prop}
    {x y : VTermScreen} {s t : VTermState} (h : Similar G E x y s t) (front : List (List ℕ)) :
    Similar G E x y (run VTermState.glyphStep s (front.map fun glyph => (glyph, false)))
      (run VTermState.glyphStep t (front.map fun glyph => (glyph, false))) := by
  induction front generalizing s t with
  | nil => exact h
  | cons glyph front ih => exact ih (h.glyphStep glyph)

theorem savedGlyph_glyphStep (s : VTermState) (glyph : List ℕ) :
    (s.glyphStep (glyph, false)).savedGlyph = s.savedGlyph := by
  have hstep := glyphStep_onto s s.savedGlyph s.decoders [] glyph false
  rw [onto_self, if_neg (by decide)] at hstep
  rw [hstep, onto_savedGlyph]

/-- Saving a glyph changes the text memory alone. -/
theorem similar_saved (h : s.savedGlyph.Allocated) (glyph : List ℕ) :
    Similar BothAllocated AnyDecoders x x (s.glyphStep (glyph, true)) (s.glyphStep (glyph, false)) := by
  have hstep : s.glyphStep (glyph, false) =
      (s.pastGlyph (glyphWidth glyph)).putglyph glyph (glyphWidth glyph) s.glyphPos :=
    advance_call s.wrapPhantom.insertRoom _ _
  have hallocated : (s.glyphStep (glyph, false)).savedGlyph.Allocated := by
    rw [savedGlyph_glyphStep]
    exact h
  have hsaved : BothAllocated (s.savedGlyph.save glyph s.glyphPos)
      (s.glyphStep (glyph, false)).savedGlyph := ⟨h.storeCombineChars 0 glyph, hallocated⟩
  rw [glyphStep_last, ← hstep]
  have hany : AnyDecoders s.decoders (s.glyphStep (glyph, false)).decoders := trivial
  have hsame : run VTermScreen.exec x ([] : List ScreenCall) = run VTermScreen.exec x [] := rfl
  exact similar_onto (s.glyphStep (glyph, false)) hsaved hany hsame

theorem dropWhile_of_head {points : List ℕ} (h : ¬ unicodeIsCombining (points.headD 0) = true) :
    points.takeWhile unicodeIsCombining = [] ∧ points.dropWhile unicodeIsCombining = points := by
  cases points with
  | nil => exact ⟨rfl, rfl⟩
  | cons c rest => exact ⟨List.takeWhile_cons_of_neg h, List.dropWhile_cons_of_neg h⟩

/-- The characters that combine with the last glyph, with the cursor behind it, and the rest. -/
theorem putPoints_eq {points : List ℕ}
    (h : unicodeIsCombining (points.headD 0) = true → s.Combines points) :
    s.putPoints points =
      (if s.Combines points then s.combineWith (points.takeWhile unicodeIsCombining) else s).putGlyphs
        (points.dropWhile unicodeIsCombining) := by
  unfold putPoints
  by_cases hcombines : s.Combines points
  · rw [combineSplit_of_combines hcombines, if_pos hcombines]
  · rw [combineSplit_of_not hcombines, if_neg hcombines, (dropWhile_of_head (mt h hcombines)).2]

/-- The glyphs of a run and then another run, against the glyphs of both. -/
theorem putGlyphs_putPoints (halloc : s.savedGlyph.Allocated) {points more : List ℕ}
    (hpoints : points ≠ []) (hzero : 0 ∉ points)
    (hjoin : unicodeIsCombining (more.headD 0) = true → (s.putGlyphs points).Combines more) :
    Similar SavedGlyph.Alike AnyDecoders x x ((s.putGlyphs points).putPoints more)
      (s.putGlyphs (points ++ more)) := by
  obtain ⟨front, last, hglyphs, hlast, hsubset, happend⟩ := glyphs_append hpoints more
  have hfront := (Similar.refl halloc (x := x)).run_front front
  have hput : s.putGlyphs points =
      (run glyphStep s (front.map fun glyph => (glyph, false))).glyphStep (last, true) := by
    unfold putGlyphs
    rw [hglyphs, run_markLast_append s front (List.cons_ne_nil last [])]
    rfl
  have hboth : s.putGlyphs (points ++ more) =
      run glyphStep (run glyphStep s (front.map fun glyph => (glyph, false)))
        (markLast ((last ++ more.takeWhile unicodeIsCombining) ::
          glyphs (more.dropWhile unicodeIsCombining))) := by
    unfold putGlyphs
    rw [happend, run_markLast_append s front (List.cons_ne_nil _ _)]
  rw [putPoints_eq hjoin, hboth]
  rw [hput] at hjoin ⊢
  revert hfront hjoin
  generalize run glyphStep s (front.map fun glyph => (glyph, false)) = t
  intro hjoin hfront
  have ht : t.savedGlyph.Allocated := hfront.glyph.allocated
  have hlastzero : 0 ∉ last := fun h => hzero (hsubset h)
  have hcombining : ∀ c ∈ more.takeWhile unicodeIsCombining, unicodeIsCombining c = true :=
    fun c hc => List.mem_takeWhile_imp hc
  have hsaved : Similar SavedGlyph.Alike AnyDecoders x x
      (if (t.glyphStep (last, true)).Combines more then
        (t.glyphStep (last, true)).combineWith (more.takeWhile unicodeIsCombining)
      else t.glyphStep (last, true))
      (t.glyphStep (last ++ more.takeWhile unicodeIsCombining, true)) := by
    split
    · exact glyphStep_combineWith ht hlast hlastzero hcombining
    · rename_i hnot
      rw [(dropWhile_of_head (mt hjoin hnot)).1, List.append_nil]
      exact hfront.weaken.glyphStep_last last
  cases hrest : glyphs (more.dropWhile unicodeIsCombining) with
  | nil =>
    unfold putGlyphs
    rw [hrest]
    exact hsaved
  | cons next others =>
    have hunsaved := similar_saved ht (x := x) (last ++ more.takeWhile unicodeIsCombining)
    have hboth : Similar BothAllocated AnyDecoders x x _ _ :=
      hsaved.trans hunsaved ⟨hsaved.glyph.allocated, hunsaved.glyph.2⟩
    unfold putGlyphs
    rw [hrest]
    exact hboth.run_markLast (List.cons_ne_nil next others)

/-- A run of text and then another, against both as one run. -/
theorem putPoints_append (halloc : s.savedGlyph.Allocated) {points more : List ℕ}
    (hzero : 0 ∉ points)
    (hjoin : points = [] ∨
      (unicodeIsCombining (more.headD 0) = true → (s.putPoints points).Combines more)) :
    Similar SavedGlyph.Alike AnyDecoders x x ((s.putPoints points).putPoints more)
      (s.putPoints (points ++ more)) := by
  by_cases hpoints : points = []
  · subst hpoints
    exact (Similar.refl halloc).putPoints more
  have hjoin := hjoin.resolve_left hpoints
  have hhead : (points ++ more).headD 0 = points.headD 0 := by
    cases points with
    | nil => contradiction
    | cons c rest => rfl
  have hcombines : s.Combines (points ++ more) ↔ s.Combines points := by
    unfold Combines
    rw [hhead]
  by_cases hfirst : s.Combines points
  · have hboth := hcombines.mpr hfirst
    have hsplit : s.putPoints points = (s.combineWith (points.takeWhile unicodeIsCombining)).putGlyphs
        (points.dropWhile unicodeIsCombining) := by
      unfold putPoints
      rw [combineSplit_of_combines hfirst]
    have hsplitboth : s.putPoints (points ++ more) =
        (s.combineWith ((points ++ more).takeWhile unicodeIsCombining)).putGlyphs
          ((points ++ more).dropWhile unicodeIsCombining) := by
      unfold putPoints
      rw [combineSplit_of_combines hboth]
    by_cases hall : points.dropWhile unicodeIsCombining = []
    · have hcombining : ∀ c ∈ points, unicodeIsCombining c = true := List.dropWhile_eq_nil_iff.mp hall
      rw [hall, List.takeWhile_eq_self_iff.mpr hcombining] at hsplit
      rw [List.takeWhile_append_of_pos hcombining, List.dropWhile_append_of_pos hcombining] at hsplitboth
      rw [hsplitboth]
      rw [hsplit] at hjoin ⊢
      change unicodeIsCombining (more.headD 0) = true → (s.combineWith points).Combines more at hjoin
      change Similar _ _ x x ((s.combineWith points).putPoints more) _
      rw [putPoints_eq hjoin]
      apply Similar.putGlyphs
      split
      · exact combineWith_combineWith halloc hpoints hzero (zero_not_mem_of_combining
          fun c hc => List.mem_takeWhile_imp hc)
      · rename_i hnot
        rw [(dropWhile_of_head (mt hjoin hnot)).1, List.append_nil]
        exact (Similar.refl halloc).combineWith points
    · have hsome : (points.takeWhile unicodeIsCombining).length ≠ points.length := by
        intro hlength
        have hparts := congrArg List.length
          (List.takeWhile_append_dropWhile (p := unicodeIsCombining) (l := points))
        rw [List.length_append] at hparts
        exact hall (List.eq_nil_of_length_eq_zero (by omega))
      rw [List.takeWhile_append, if_neg hsome, List.dropWhile_append, if_neg (by simpa using hall)]
        at hsplitboth
      rw [hsplitboth]
      rw [hsplit] at hjoin ⊢
      have hallocated := ((Similar.refl halloc (x := x)).combineWith
        (points.takeWhile unicodeIsCombining)).glyph.allocated
      exact putGlyphs_putPoints hallocated hall
        (fun h => hzero (List.dropWhile_subset _ h)) hjoin
  · have hput : ∀ more, ¬ s.Combines more → s.putPoints more = s.putGlyphs more := by
      intro more hnot
      unfold putPoints
      rw [combineSplit_of_not hnot]
    rw [hput points hfirst] at hjoin ⊢
    rw [hput _ (mt hcombines.mp hfirst)]
    exact putGlyphs_putPoints halloc hpoints hzero hjoin

/-! Runs of bytes. -/

section OneSided
variable {G : SavedGlyph → SavedGlyph → Prop} {x y : VTermScreen} {s t : VTermState}

theorem Similar.setEncodingAt_left (h : Similar G AnyDecoders x y s t) (slot : TextSlot)
    (inst : VTermEncodingInstance) :
    Similar G AnyDecoders x y (s.setEncodingAt slot inst) t := by
  cases slot with
  | set i => exact ⟨h.rest, h.glyph, trivial, h.calls⟩
  | utf8 => exact ⟨h.rest, h.glyph, trivial, h.calls⟩

/-- The screen does not hear of the cursor. -/
theorem Similar.updatecursor_left (h : Similar G AnyDecoders x y s t) (oldpos : VTermPos) :
    Similar G AnyDecoders x y (s.updatecursor oldpos false) t := by
  unfold VTermState.updatecursor
  split
  · exact h
  · refine ⟨h.rest, h.glyph, trivial, ?_⟩
    rw [h.calls]
    exact (run_append VTermScreen.exec x s.calls
      [.movecursor s.pos oldpos s.mode.cursorVisible]).symm

theorem Similar.execute_left (h : Similar G AnyDecoders x y s t) :
    Similar G AnyDecoders (run VTermScreen.exec x s.calls) y { s with calls := [] } t :=
  ⟨h.rest, h.glyph, trivial, h.calls⟩

theorem Similar.symm (h : Similar SavedGlyph.Alike AnyDecoders x y s t) :
    Similar SavedGlyph.Alike AnyDecoders y x t s where
  rest := by
    rw [h.rest]
  glyph := h.glyph.symm
  decoders := trivial
  calls := h.calls.symm

/-- But for its decoder, a run does what its code points do. -/
theorem Similar.onText_left (h : Similar SavedGlyph.Alike AnyDecoders x y s t) (bytes : List UInt8) :
    Similar SavedGlyph.Alike AnyDecoders x y (s.onText bytes).1
      (t.putPoints (decode (s.encodingAt (s.textSlot (bytes.headD 0))) bytes).1) := by
  have hset := h.setEncodingAt_left (s.textSlot (bytes.headD 0))
    (decode (s.encodingAt (s.textSlot (bytes.headD 0))) bytes).2.2
  exact (hset.putPoints _).updatecursor_left s.pos

end OneSided

/-- The decoder on_text takes for a run, as it is before the run. -/
def runDecoder (s : VTermState) (bytes : List UInt8) : VTermEncodingInstance :=
  s.encodingAt (s.textSlot (bytes.headD 0))

theorem headD_append {bytes : List UInt8} (h : bytes ≠ []) (more : List UInt8) :
    (bytes ++ more).headD 0 = bytes.headD 0 := by
  cases bytes with
  | nil => contradiction
  | cons byte rest => rfl

/-- Two runs, the screen executing the calls of the first in between, against one of both. -/
theorem onText_append (halloc : s.savedGlyph.Allocated) {bytes more : List UInt8}
    (hbytes : bytes ≠ []) {t : VTermState} (ht : t = { (s.onText bytes).1 with calls := [] })
    (hzero : 0 ∉ (decode (s.runDecoder bytes) bytes).1)
    (hpoints : (decode (s.runDecoder bytes) (bytes ++ more)).1 =
      (decode (s.runDecoder bytes) bytes).1 ++ (decode (t.runDecoder more) more).1)
    (hjoin : (decode (s.runDecoder bytes) bytes).1 = [] ∨
      (unicodeIsCombining ((decode (t.runDecoder more) more).1.headD 0) = true →
        t.Combines (decode (t.runDecoder more) more).1)) :
    Similar SavedGlyph.Alike AnyDecoders (run VTermScreen.exec x (s.onText bytes).1.calls) x
      (t.onText more).1 (s.onText (bytes ++ more)).1 := by
  have hself := Similar.refl halloc (x := x)
  have hfirst := (hself.onText_left bytes).execute_left
  rw [← ht] at hfirst
  have hsecond := hfirst.onText_left more
  have hboth := hself.onText_left (bytes ++ more)
  rw [headD_append hbytes more] at hboth
  change Similar _ _ x x _ (s.putPoints (decode (s.runDecoder bytes) (bytes ++ more)).1) at hboth
  rw [hpoints] at hboth
  change Similar _ _ _ x t (s.putPoints (decode (s.runDecoder bytes) bytes).1) at hfirst
  have happend := putPoints_append (x := x) halloc hzero
    (hjoin.imp_right fun h hhead => (hfirst.combines_iff _).mpr (h hhead))
  have hrest := happend.trans hboth.symm (happend.glyph.trans hboth.symm.glyph)
  exact hsecond.trans hrest (hsecond.glyph.trans hrest.glyph)

end VTermState

end Jterm.Vterm
