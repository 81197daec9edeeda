import Jterm.Vterm.Emits
import Jterm.Vterm.OnScreen

/-!
The fixed buffers that text goes through: the code points of a run, the characters kept for
combining ones, and the characters of a cell. A cell's characters are read up to the first zero,
so one of them has to be zero.
-/
namespace Jterm.Vterm

open Runs

/-! A run of `n` bytes has room for `n` code points; an unfinished one is carried over. -/

def VTermEncodingInstance.Carries (inst : VTermEncodingInstance) : Prop :=
  inst.enc = .utf8 ∧ inst.data.bytesRemaining ≠ 0

instance (inst : VTermEncodingInstance) : Decidable inst.Carries :=
  inferInstanceAs (Decidable (_ ∧ _))

def isContinuation (byte : UInt8) : Prop := 0x80 ≤ byte.toNat ∧ byte.toNat < 0xc0

instance (byte : UInt8) : Decidable (isContinuation byte) := inferInstanceAs (Decidable (_ ∧ _))

/-- A byte of the run belongs to a code point begun before it, or the run leaves one unfinished, or
it ends before the chunk does. -/
def carryUsed (inst : VTermEncodingInstance) : List UInt8 → Bool
  | [] => inst.Carries
  | byte :: bytes =>
    match decodeByte inst byte with
    | none => true
    | some (_, next) => decide (inst.Carries ∧ isContinuation byte) || carryUsed next bytes

/-- The code points that may come out of what was carried over. -/
def carried (inst : VTermEncodingInstance) : ℕ := if inst.Carries then 1 else 0

theorem carried_utf8 (data : UTF8DecoderData) :
    carried ⟨.utf8, data⟩ = if data.bytesRemaining = 0 then 0 else 1 := by
  unfold carried VTermEncodingInstance.Carries
  by_cases hnone : data.bytesRemaining = 0
  · simp [hnone]
  · simp [hnone]

theorem carried_other {inst : VTermEncodingInstance} (h : inst.enc ≠ .utf8) : carried inst = 0 :=
  if_neg fun hcarries => h hcarries.1

/-- A byte stores one code point and one more for an unfinished one before it, if it does not
continue that one; it may begin another. -/
theorem decodeUtf8Byte_count {data next : UTF8DecoderData} {byte : UInt8} {cps : List ℕ}
    (h : decodeUtf8Byte data byte = some (cps, next)) :
    cps.length + carried ⟨.utf8, next⟩ +
        (if data.bytesRemaining ≠ 0 ∧ isContinuation byte then 1 else 0) =
      1 + carried ⟨.utf8, data⟩ := by
  have hstart : ∀ total thisCp, 2 ≤ total → startCp data total thisCp = (cps, next) →
      cps.length + carried ⟨.utf8, next⟩ = 1 + carried ⟨.utf8, data⟩ := by
    intro total thisCp htotal hfound
    obtain ⟨rfl, rfl⟩ := Prod.mk.inj hfound
    rw [carried_utf8, carried_utf8, if_neg (show total - 1 ≠ 0 by omega)]
    split
    · rfl
    · rename_i hnone
      rw [if_pos (not_not.mp hnone)]
      rfl
  unfold isContinuation
  unfold decodeUtf8Byte at h
  dsimp only at h
  split_ifs at h with h20 h80 hbegun hc0 hnone hlast he0 hf0 hf8 hfc hfe
  · obtain ⟨rfl, rfl⟩ := Prod.mk.inj (Option.some.inj h)
    rw [if_neg (by omega), carried_utf8, carried_utf8, if_neg hbegun]
    rfl
  · obtain ⟨rfl, rfl⟩ := Prod.mk.inj (Option.some.inj h)
    rw [if_neg (by omega), carried_utf8, carried_utf8, if_pos (not_not.mp hbegun)]
    rfl
  · obtain ⟨rfl, rfl⟩ := Prod.mk.inj (Option.some.inj h)
    rw [if_neg (by omega)]
    rfl
  · obtain ⟨rfl, rfl⟩ := Prod.mk.inj (Option.some.inj h)
    rw [if_pos (by omega), carried_utf8, carried_utf8, if_neg hnone]
    rfl
  · obtain ⟨rfl, rfl⟩ := Prod.mk.inj (Option.some.inj h)
    rw [if_pos (by omega), carried_utf8, carried_utf8, if_neg hnone,
      if_neg (show data.bytesRemaining - 1 ≠ 0 by omega)]
    rfl
  · rw [if_neg (by omega), Nat.add_zero]
    exact hstart 2 _ (by decide) (Option.some.inj h)
  · rw [if_neg (by omega), Nat.add_zero]
    exact hstart 3 _ (by decide) (Option.some.inj h)
  · rw [if_neg (by omega), Nat.add_zero]
    exact hstart 4 _ (by decide) (Option.some.inj h)
  · rw [if_neg (by omega), Nat.add_zero]
    exact hstart 5 _ (by decide) (Option.some.inj h)
  · rw [if_neg (by omega), Nat.add_zero]
    exact hstart 6 _ (by decide) (Option.some.inj h)
  · obtain ⟨rfl, rfl⟩ := Prod.mk.inj (Option.some.inj h)
    rw [if_neg (by omega)]
    rfl

/-- The other decoders store one code point for each byte. -/
theorem length_of_not_utf8 {inst next : VTermEncodingInstance} {byte : UInt8} {cps : List ℕ}
    (hutf8 : inst.enc ≠ .utf8) (h : decodeByte inst byte = some (cps, next)) : cps.length = 1 := by
  have htable : ∀ enc found, decodeTableByte enc byte = some found → found.length = 1 := by
    intro enc found hfound
    unfold decodeTableByte at hfound
    dsimp only at hfound
    split_ifs at hfound
    all_goals
      rw [← Option.some.inj hfound]
      rfl
  unfold decodeByte at h
  split at h
  · rename_i henc
    exact absurd henc hutf8
  · obtain ⟨found, hbyte, hfound⟩ := Option.map_eq_some_iff.mp h
    rw [← (Prod.mk.inj hfound).1]
    unfold decodeUsasciiByte at hbyte
    dsimp only at hbyte
    split_ifs at hbyte
    rw [← Option.some.inj hbyte]
    rfl
  · obtain ⟨found, hbyte, hfound⟩ := Option.map_eq_some_iff.mp h
    rw [← (Prod.mk.inj hfound).1]
    exact htable _ _ hbyte

theorem decodeByte_count {inst next : VTermEncodingInstance} {byte : UInt8} {cps : List ℕ}
    (h : decodeByte inst byte = some (cps, next)) :
    cps.length + carried next + (if inst.Carries ∧ isContinuation byte then 1 else 0) =
      1 + carried inst := by
  have hkeeps := decodeByte_enc h
  obtain ⟨enc, data⟩ := inst
  by_cases hutf8 : enc = .utf8
  · subst hutf8
    obtain ⟨⟨cps', data'⟩, hbyte, hfound⟩ := Option.map_eq_some_iff.mp h
    obtain ⟨rfl, rfl⟩ := Prod.mk.inj hfound
    simpa [VTermEncodingInstance.Carries] using decodeUtf8Byte_count hbyte
  · have hnone : ¬ VTermEncodingInstance.Carries ⟨enc, data⟩ := fun hcarries => hutf8 hcarries.1
    have hnext : next.enc ≠ .utf8 := by
      rw [hkeeps]
      exact hutf8
    rw [carried_other hnext, carried_other (show (⟨enc, data⟩ : VTermEncodingInstance).enc ≠ .utf8
      from hutf8), if_neg fun hboth => hnone hboth.1]
    rw [length_of_not_utf8 hutf8 h]

/-- How many code points a run stores at most, and when it stores that many. -/
theorem decode_count (inst : VTermEncodingInstance) (bytes : List UInt8) :
    if carryUsed inst bytes then (decode inst bytes).1.length + 1 ≤ bytes.length + carried inst
    else (decode inst bytes).1.length = bytes.length + carried inst := by
  induction bytes generalizing inst with
  | nil =>
    unfold carryUsed carried
    by_cases hcarries : inst.Carries
    · simp [hcarries, decode]
    · simp [hcarries, decode]
  | cons byte bytes ih =>
    cases hbyte : decodeByte inst byte with
    | none =>
      rw [decode_cons_none hbyte]
      simp only [carryUsed, hbyte, if_true, List.length_nil, List.length_cons]
      omega
    | some found =>
      obtain ⟨cps, next⟩ := found
      have hcount := decodeByte_count hbyte
      have hrest := ih next
      rw [decode_cons_some hbyte]
      simp only [carryUsed, hbyte, List.length_append, List.length_cons, Bool.or_eq_true,
        decide_eq_true_eq]
      by_cases hcontinues : inst.Carries ∧ isContinuation byte
      · rw [if_pos hcontinues] at hcount
        rw [if_pos (Or.inl hcontinues)]
        split at hrest <;> omega
      · rw [if_neg hcontinues] at hcount
        by_cases hused : carryUsed next bytes = true
        · rw [if_pos hused] at hrest
          rw [if_pos (Or.inr hused)]
          omega
        · rw [if_neg hused] at hrest
          rw [if_neg (by simp [hcontinues, hused])]
          omega

/-- The code points of a run fit unless it begins with one carried over of which nothing comes. -/
theorem decode_fits_iff (inst : VTermEncodingInstance) (bytes : List UInt8) :
    (decode inst bytes).1.length ≤ bytes.length ↔ (inst.Carries → carryUsed inst bytes = true) := by
  have hcount := decode_count inst bytes
  unfold carried at hcount
  by_cases hcarries : inst.Carries
  · rw [if_pos hcarries] at hcount
    by_cases hused : carryUsed inst bytes = true
    · rw [if_pos hused] at hcount
      exact iff_of_true (by omega) fun _ => hused
    · rw [if_neg hused] at hcount
      exact iff_of_false (by omega) fun h => hused (h hcarries)
  · rw [if_neg hcarries] at hcount
    refine iff_of_true ?_ fun h => absurd h hcarries
    split at hcount <;> omega

namespace VTermState

variable {s t : VTermState}

/-! The saved glyph: 16 characters at first, 32 once the buffer has grown. -/

/-- The index that is written is in the buffer and growing it keeps what is in front of it. -/
def StoreSafe (s : VTermState) (i : ℕ) : Prop :=
  let grown := if combineCharsSize ≤ i then s.growCombineBuffer else s
  i < grown.combineChars.length ∧ ∀ j < i, grown.combineChars[j]? = s.combineChars[j]?

def StoresSafe (s : VTermState) (i : ℕ) : List ℕ → Prop
  | [] => s.StoreSafe i
  | c :: chars => s.StoreSafe i ∧ (s.storeCombine i c).StoresSafe (i + 1) chars

instance (s : VTermState) (i : ℕ) : Decidable (s.StoreSafe i) :=
  inferInstanceAs (Decidable (_ ∧ ∀ j < i, _))

instance decidableStoresSafe : ∀ (s : VTermState) (i : ℕ) (chars : List ℕ),
    Decidable (s.StoresSafe i chars)
  | s, i, [] => inferInstanceAs (Decidable (s.StoreSafe i))
  | s, i, c :: chars =>
    have := decidableStoresSafe (s.storeCombine i c) (i + 1) chars
    inferInstanceAs (Decidable (s.StoreSafe i ∧ (s.storeCombine i c).StoresSafe (i + 1) chars))

/-- What is allocated. -/
def CombineAllocated (s : VTermState) : Prop :=
  s.combineChars.length = combineCharsSize ∨ s.combineChars.length = combineCharsSize * 2

theorem CombineAllocated.le (h : s.CombineAllocated) : combineCharsSize ≤ s.combineChars.length := by
  unfold CombineAllocated combineCharsSize at *
  omega

theorem length_growCombineBuffer (h : s.CombineAllocated) :
    s.growCombineBuffer.combineChars.length = combineCharsSize * 2 := by
  unfold growCombineBuffer
  rw [List.length_append, List.length_take, List.length_replicate, Nat.min_eq_left h.le]
  rfl

theorem CombineAllocated.storeCombine (h : s.CombineAllocated) (i c : ℕ) :
    (s.storeCombine i c).CombineAllocated := by
  unfold VTermState.storeCombine CombineAllocated
  dsimp only
  rw [List.length_set]
  split
  · exact .inr (length_growCombineBuffer h)
  · exact h

theorem CombineAllocated.storeCombineChars (h : s.CombineAllocated) (i : ℕ) (chars : List ℕ) :
    (s.storeCombineChars i chars).CombineAllocated := by
  induction chars generalizing s i with
  | nil => exact h.storeCombine i 0
  | cons c chars ih => exact ih (h.storeCombine i c) (i + 1)

theorem storeSafe_of_le (h : s.CombineAllocated) {i : ℕ} (hi : i ≤ combineCharsSize) :
    s.StoreSafe i := by
  have hle := h.le
  unfold StoreSafe
  dsimp only
  by_cases hgrows : combineCharsSize ≤ i
  · rw [if_pos hgrows, length_growCombineBuffer h]
    refine ⟨by unfold combineCharsSize at *; omega, ?_⟩
    intro j hj
    unfold growCombineBuffer
    dsimp only
    rw [List.getElem?_append_left (by rw [List.length_take]; omega),
      List.getElem?_take_of_lt (by omega)]
  · rw [if_neg hgrows]
    exact ⟨by omega, fun _ _ => rfl⟩

/-- Up to 16 characters and the zero behind them are stored where they belong and kept. -/
theorem storesSafe_of_le (h : s.CombineAllocated) {i : ℕ} {chars : List ℕ}
    (hi : i + chars.length ≤ combineCharsSize) : s.StoresSafe i chars := by
  induction chars generalizing s i with
  | nil => exact storeSafe_of_le h hi
  | cons c chars ih =>
    rw [List.length_cons] at hi
    exact ⟨storeSafe_of_le h (by omega), ih (h.storeCombine i c) (by omega)⟩

theorem length_takeWhile_le_of_zero {chars : List ℕ} {i : ℕ} (h : chars[i]? = some 0) :
    (chars.takeWhile (· ≠ 0)).length ≤ i := by
  induction chars generalizing i with
  | nil => exact Nat.zero_le i
  | cons c chars ih =>
    by_cases hzero : c = 0
    · simp [hzero]
    · cases i with
      | zero => exact absurd (Option.some.inj h) hzero
      | succ i => simpa [hzero] using ih h

/-- The glyph is read up to the zero that was stored. -/
theorem length_combineString_store (h : s.CombineAllocated) {i : ℕ} {chars : List ℕ}
    (hi : i + chars.length ≤ combineCharsSize) :
    (s.storeCombineChars i chars).combineString.length ≤ i + chars.length := by
  induction chars generalizing s i with
  | nil =>
    obtain ⟨hlt, -⟩ := storeSafe_of_le h hi
    apply length_takeWhile_le_of_zero
    unfold storeCombineChars storeCombine
    exact List.getElem?_set_self hlt
  | cons c chars ih =>
    rw [List.length_cons] at hi ⊢
    have hrest := ih (h.storeCombine i c) (show i + 1 + chars.length ≤ combineCharsSize by omega)
    rw [storeCombineChars]
    omega

/-! What a run of text does to the buffers. -/

/-- The last glyph of the run is saved where it belongs. -/
def GlyphSafe (s : VTermState) (g : List ℕ × Bool) : Prop :=
  g.2 = true → s.wrapPhantom.insertRoom.StoresSafe 0 g.1

/-- The run begins with characters that are added to the glyph in front of the cursor. -/
def Combines (s : VTermState) (codepoints : List ℕ) : Prop :=
  unicodeIsCombining (codepoints.headD 0) ∧ s.pos.row = s.combinePos.row ∧
    s.pos.col = s.combinePos.col + s.combineWidth

instance (s : VTermState) (codepoints : List ℕ) : Decidable (s.Combines codepoints) :=
  inferInstanceAs (Decidable (_ ∧ _))

def PointsSafe (s : VTermState) (codepoints : List ℕ) : Prop :=
  (s.Combines codepoints →
    s.StoresSafe s.combineString.length (codepoints.takeWhile unicodeIsCombining)) ∧
  AllSteps glyphStep GlyphSafe (s.combineSplit codepoints).1
    (markLast (glyphs (s.combineSplit codepoints).2))

instance (s : VTermState) (g : List ℕ × Bool) : Decidable (s.GlyphSafe g) :=
  inferInstanceAs (Decidable (_ → _))

instance (s : VTermState) (codepoints : List ℕ) : Decidable (s.PointsSafe codepoints) :=
  inferInstanceAs (Decidable (_ ∧ _))

/-- on_text stores no more code points than bytes, and its glyphs where they belong. -/
def TextSafe (s : VTermState) : ParserCall → Prop
  | .text bytes =>
    let slot := s.textSlot (bytes.headD 0)
    let decoded := decode (s.encodingAt slot) bytes
    decoded.1.length ≤ bytes.length ∧ (s.setEncodingAt slot decoded.2.2).PointsSafe decoded.1
  | _ => True

instance (s : VTermState) : ∀ c, Decidable (s.TextSafe c)
  | .text _ => inferInstanceAs (Decidable (_ ∧ _))
  | .control _ | .escape _ | .csi _ _ | .osc _ | .dcs _ => .isTrue trivial

/-- No glyph has more characters than fit in a cell with a zero behind them. -/
def PointsFit (s : VTermState) (codepoints : List ℕ) : Prop :=
  (s.Combines codepoints → s.combineString.length +
    (codepoints.takeWhile unicodeIsCombining).length < maxCharsPerCell) ∧
  ∀ glyph ∈ glyphs (s.combineSplit codepoints).2, glyph.length < maxCharsPerCell

instance (s : VTermState) (codepoints : List ℕ) : Decidable (s.PointsFit codepoints) :=
  inferInstanceAs (Decidable (_ ∧ _))

/-- The text fits: what is carried over gives no code point too many, and no glyph is too long. -/
def BuffersFit (s : VTermState) : ParserCall → Prop
  | .text bytes =>
    let slot := s.textSlot (bytes.headD 0)
    let decoded := decode (s.encodingAt slot) bytes
    ((s.encodingAt slot).Carries → carryUsed (s.encodingAt slot) bytes = true) ∧
      (s.setEncodingAt slot decoded.2.2).PointsFit decoded.1
  | _ => True

instance (s : VTermState) : ∀ c, Decidable (s.BuffersFit c)
  | .text _ => inferInstanceAs (Decidable (_ ∧ _))
  | .control _ | .escape _ | .csi _ _ | .osc _ | .dcs _ => .isTrue trivial

end VTermState

/-- A glyph has room for a zero behind it. -/
def ScreenCall.FewChars : ScreenCall → Prop
  | .putglyph chars _ _ => chars.length < maxCharsPerCell
  | _ => True

def FewCharsCalls (_ : ℤ) (cs : List ScreenCall) : Prop := ∀ c ∈ cs, c.FewChars

instance : CallFamily FewCharsCalls where
  nil _ := by simp [FewCharsCalls]
  append hcs hds := fun c hc => (List.mem_append.mp hc).elim (hcs c) (hds c)
  simple {_ c} hc := by
    intro d hd
    rw [List.mem_singleton.mp hd]
    cases c with
    | putglyph chars width pos =>
      have hone : chars.length = 1 := hc
      change chars.length < maxCharsPerCell
      rw [hone]
      decide
    | _ => trivial
  altscreen _ _ := by
    intro c hc
    rcases List.mem_pair.mp hc with rfl | rfl
    · trivial
    · trivial

namespace VTermState

variable {s t : VTermState}

/-- Between two calls: what is allocated for the saved glyph, and what the screen was asked for. -/
structure BufferInv (s : VTermState) : Prop where
  allocated : s.CombineAllocated
  calls : ∀ c ∈ s.calls, c.FewChars

theorem BufferInv.makes (h : s.BufferInv) (hmakes : Makes FewCharsCalls s t) : t.BufferInv := by
  obtain ⟨-, hchars, cs, hcalls, hfew⟩ := hmakes
  constructor
  · unfold CombineAllocated
    rw [hchars]
    exact h.allocated
  · intro c hc
    rw [hcalls] at hc
    rcases List.mem_append.mp hc with hold | hnew
    · exact h.calls c hold
    · exact hfew c hnew

theorem BufferInv.putglyph (h : s.BufferInv) {chars : List ℕ}
    (hchars : chars.length < maxCharsPerCell) (width : ℤ) (pos : VTermPos) :
    (s.putglyph chars width pos).BufferInv := by
  refine ⟨h.allocated, ?_⟩
  intro c hc
  rcases List.mem_append.mp hc with hold | hnew
  · exact h.calls c hold
  · rw [List.mem_singleton.mp hnew]
    exact hchars

theorem calls_storeCombineChars (s : VTermState) (i : ℕ) (chars : List ℕ) :
    (s.storeCombineChars i chars).calls = s.calls := by
  have hstore : ∀ (s : VTermState) (i c : ℕ), (s.storeCombine i c).calls = s.calls := by
    intro s i c
    unfold storeCombine
    split
    · rfl
    · rfl
  induction chars generalizing s i with
  | nil => exact hstore s i 0
  | cons c chars ih => exact (ih _ (i + 1)).trans (hstore s i c)

theorem BufferInv.storeCombineChars (h : s.BufferInv) (i : ℕ) (chars : List ℕ) :
    (s.storeCombineChars i chars).BufferInv := by
  refine ⟨h.allocated.storeCombineChars i chars, ?_⟩
  rw [calls_storeCombineChars]
  exact h.calls

theorem BufferInv.combineSplit (h : s.BufferInv) {codepoints : List ℕ}
    (hfit : s.Combines codepoints → s.combineString.length +
      (codepoints.takeWhile unicodeIsCombining).length < maxCharsPerCell) :
    (s.combineSplit codepoints).1.BufferInv := by
  unfold VTermState.combineSplit
  split
  · rename_i hcombines
    have hfew := hfit hcombines
    have hlength := length_combineString_store h.allocated
      (show s.combineString.length + (codepoints.takeWhile unicodeIsCombining).length ≤
        combineCharsSize by unfold maxCharsPerCell at hfew; unfold combineCharsSize; omega)
    exact (h.storeCombineChars _ _).putglyph (by omega) _ _
  · exact h

theorem BufferInv.room (h : s.BufferInv) : s.wrapPhantom.insertRoom.BufferInv := by
  have hwrap : Makes FewCharsCalls s s.wrapPhantom := by
    unfold VTermState.wrapPhantom
    split
    · exact (Makes.refl s).linefeed
    · exact .refl s
  apply h.makes
  unfold VTermState.insertRoom
  split
  · exact hwrap.scroll _ 0 (-1)
  · exact hwrap

theorem BufferInv.glyphStep (h : s.BufferInv) {g : List ℕ × Bool}
    (hfew : g.1.length < maxCharsPerCell) : (s.glyphStep g).BufferInv := by
  have hput := h.room.putglyph hfew (glyphWidth g.1) s.wrapPhantom.insertRoom.pos
  have hsave : ((s.wrapPhantom.insertRoom.putglyph g.1 (glyphWidth g.1)
      s.wrapPhantom.insertRoom.pos).saveGlyph g.1 g.2).BufferInv := by
    unfold VTermState.saveGlyph
    split
    · have hstored := hput.storeCombineChars 0 g.1
      exact ⟨hstored.allocated, hstored.calls⟩
    · exact hput
  unfold VTermState.glyphStep VTermState.putGlyph VTermState.advance
  dsimp only
  split
  · split
    · exact ⟨hsave.allocated, hsave.calls⟩
    · exact hsave
  · exact ⟨hsave.allocated, hsave.calls⟩

theorem BufferInv.glyphSafe (h : s.BufferInv) {g : List ℕ × Bool}
    (hfew : g.1.length < maxCharsPerCell) : s.GlyphSafe g := fun _ =>
  storesSafe_of_le h.room.allocated (by
    unfold maxCharsPerCell at hfew
    unfold combineCharsSize
    omega)

theorem mem_markLast {glyph : List ℕ} {last : Bool} {glyphs : List (List ℕ)}
    (h : (glyph, last) ∈ markLast glyphs) : glyph ∈ glyphs := by
  induction glyphs with
  | nil => exact absurd h List.not_mem_nil
  | cons g gs ih =>
    rcases List.mem_cons.mp h with hfirst | hrest
    · rw [(Prod.mk.inj hfirst).1]
      exact List.mem_cons_self
    · exact List.mem_cons_of_mem g (ih hrest)

theorem BufferInv.putGlyphs (h : s.BufferInv) {glyphs : List (List ℕ × Bool)}
    (hfew : ∀ g ∈ glyphs, g.1.length < maxCharsPerCell) :
    (run VTermState.glyphStep s glyphs).BufferInv ∧
      AllSteps VTermState.glyphStep GlyphSafe s glyphs := by
  induction glyphs generalizing s with
  | nil => exact ⟨h, trivial⟩
  | cons g gs ih =>
    have hfirst := hfew g List.mem_cons_self
    obtain ⟨hrun, hsteps⟩ := ih (h.glyphStep hfirst) fun d hd => hfew d (List.mem_cons_of_mem g hd)
    exact ⟨hrun, h.glyphSafe hfirst, hsteps⟩

/-- Text that fits is stored safely and asks for glyphs that fit. -/
theorem BufferInv.onText (h : s.BufferInv) {bytes : List UInt8} (hfits : s.BuffersFit (.text bytes)) :
    (s.onText bytes).1.BufferInv ∧ s.TextSafe (.text bytes) := by
  obtain ⟨hcarry, hcombine, hglyphs⟩ := hfits
  have hset : ∀ slot inst, (s.setEncodingAt slot inst).BufferInv := by
    intro slot inst
    cases slot with
    | set i => exact ⟨h.allocated, h.calls⟩
    | utf8 => exact ⟨h.allocated, h.calls⟩
  have hdecoded := hset (s.textSlot (bytes.headD 0))
    (decode (s.encodingAt (s.textSlot (bytes.headD 0))) bytes).2.2
  have hsplit := hdecoded.combineSplit hcombine
  obtain ⟨hrun, hsteps⟩ := hsplit.putGlyphs fun g hg => hglyphs g.1 (mem_markLast hg)
  refine ⟨hrun.makes ((Makes.refl _).updatecursor s.pos false), ?_, ?_, hsteps⟩
  · exact (decode_fits_iff _ _).mpr hcarry
  · intro hcombines
    have hfew := hcombine hcombines
    apply storesSafe_of_le hdecoded.allocated
    unfold maxCharsPerCell at hfew
    unfold combineCharsSize
    omega

theorem BufferInv.stateCall (h : s.BufferInv) {c : ParserCall} (hfits : s.BuffersFit c) :
    (s.stateCall c).BufferInv ∧ s.TextSafe c := by
  cases c with
  | text bytes => exact h.onText hfits
  | _ => exact ⟨h.makes (makes_stateCall s (by simp)), trivial⟩

end VTermState

end Jterm.Vterm
