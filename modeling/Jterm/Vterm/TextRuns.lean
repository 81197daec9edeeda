import Jterm.Vterm.TextBuffers
import Jterm.Vterm.TextMemory

/-!
Runs of text over text memories that agree in what the next run reads: the last glyph up to
its first zero, and of a decoder the unfinished code point. The same bytes do the same in
both, and the memories go on to agree.
-/
namespace Jterm.Vterm

open Runs

/-! What is read of the last glyph. -/

namespace SavedGlyph

variable {g : SavedGlyph}

/-- The characters in front of the first zero. -/
def string (g : SavedGlyph) : List ℕ := g.chars.takeWhile (· ≠ 0)

def storeCombine (g : SavedGlyph) (i c : ℕ) : SavedGlyph :=
  let chars :=
    if VTermState.combineCharsSize ≤ i then g.chars.take VTermState.combineCharsSize ++
      List.replicate (VTermState.combineCharsSize * 2 - VTermState.combineCharsSize) 0
    else g.chars
  { g with chars := chars.set i c }

def storeCombineChars (g : SavedGlyph) (i : ℕ) : List ℕ → SavedGlyph
  | [] => g.storeCombine i 0
  | c :: chars => (g.storeCombine i c).storeCombineChars (i + 1) chars

/-- The glyph as saveGlyph leaves it. -/
def save (g : SavedGlyph) (chars : List ℕ) (pos : VTermPos) : SavedGlyph :=
  { g.storeCombineChars 0 chars with width := VTermState.glyphWidth chars, pos := pos }

def Allocated (g : SavedGlyph) : Prop := VTermState.combineCharsSize ≤ g.chars.length

theorem Allocated.storeCombine (h : g.Allocated) (i c : ℕ) : (g.storeCombine i c).Allocated := by
  unfold SavedGlyph.storeCombine Allocated at *
  dsimp only
  rw [List.length_set]
  split
  · rw [List.length_append, List.length_take, List.length_replicate]
    omega
  · exact h

theorem Allocated.storeCombineChars (h : g.Allocated) (i : ℕ) (chars : List ℕ) :
    (g.storeCombineChars i chars).Allocated := by
  induction chars generalizing g i with
  | nil => exact h.storeCombine i 0
  | cons c chars ih => exact ih (h.storeCombine i c) (i + 1)

theorem take_set_self {l : List ℕ} {i : ℕ} (h : i < l.length) (c : ℕ) :
    (l.set i c).take (i + 1) = l.take i ++ [c] := by
  have hlength : (l.take i ++ [c]).length = i + 1 := by
    rw [List.length_append, List.length_take_of_le (Nat.le_of_lt h), List.length_singleton]
  rw [List.set_eq_take_append_cons_drop, if_pos h, List.append_cons, List.take_left' hlength]

theorem takeWhile_append_zero (l rest : List ℕ) :
    (l ++ 0 :: rest).takeWhile (· ≠ 0) = l.takeWhile (· ≠ 0) := by
  induction l with
  | nil => rfl
  | cons c l ih =>
    rw [List.cons_append, List.takeWhile_cons, List.takeWhile_cons, ih]

/-- A character is stored behind those in front of it, or behind the end of the buffer. -/
theorem take_storeCombine (h : g.Allocated) (i c : ℕ) (more : List ℕ) :
    ((g.storeCombine i c).chars.take (i + 1) ++ more).take VTermState.combineCharsSize =
      (g.chars.take i ++ c :: more).take VTermState.combineCharsSize := by
  have hlength : (g.chars.take VTermState.combineCharsSize).length = VTermState.combineCharsSize :=
    List.length_take_of_le h
  unfold storeCombine
  dsimp only
  split
  · rename_i hi
    have hfront : VTermState.combineCharsSize ≤ (g.chars.take i).length := by
      rw [List.length_take]
      exact Nat.le_min.mpr ⟨hi, h⟩
    have hgrown : ∀ rest : List ℕ,
        (g.chars.take VTermState.combineCharsSize ++ rest).take (i + 1) =
          g.chars.take VTermState.combineCharsSize ++
            rest.take (i + 1 - VTermState.combineCharsSize) := by
      intro rest
      rw [List.take_append, List.take_of_length_le (by omega), hlength]
    rw [List.set_append_right _ _ (by omega), hgrown, List.append_assoc,
      List.take_left' hlength, List.take_append_of_le_length hfront, List.take_take,
      Nat.min_eq_left hi]
  · rename_i hi
    rw [take_set_self (by unfold Allocated at h; omega), List.append_assoc]
    rfl

theorem string_storeCombine_zero (h : g.Allocated) (i : ℕ) :
    (g.storeCombine i 0).string =
      ((g.chars.take i).take VTermState.combineCharsSize).takeWhile (· ≠ 0) := by
  unfold storeCombine string
  dsimp only
  split
  · rename_i hi
    rw [List.set_append_right _ _ (by rw [List.length_take]; omega), List.set_replicate_self,
      List.take_take, Nat.min_eq_left hi]
    exact takeWhile_append_zero _ _
  · rename_i hi
    rw [List.set_eq_take_append_cons_drop, if_pos (by unfold Allocated at h; omega),
      takeWhile_append_zero, List.take_take, Nat.min_eq_right (by omega)]

/-- The buffer holds what is stored from `i` on behind what was in front, 16 characters at most. -/
theorem string_storeCombineChars (h : g.Allocated) (i : ℕ) (chars : List ℕ) :
    (g.storeCombineChars i chars).string =
      ((g.chars.take i ++ chars).take VTermState.combineCharsSize).takeWhile (· ≠ 0) := by
  induction chars generalizing g i with
  | nil =>
    rw [storeCombineChars, string_storeCombine_zero h, List.append_nil]
  | cons c chars ih =>
    rw [storeCombineChars, ih (h.storeCombine i c), take_storeCombine h]

theorem storeCombineChars_place (g : SavedGlyph) (i : ℕ) (chars : List ℕ) :
    (g.storeCombineChars i chars).width = g.width ∧ (g.storeCombineChars i chars).pos = g.pos := by
  induction chars generalizing g i with
  | nil => exact ⟨rfl, rfl⟩
  | cons c chars ih => exact ih (g.storeCombine i c) (i + 1)

/-- Where the glyph may still be combined with, and what it is. -/
structure Alike (g g' : SavedGlyph) : Prop where
  allocated : g.Allocated
  allocated' : g'.Allocated
  string : g'.string = g.string
  width : g'.width = g.width
  pos : g'.pos = g.pos

/-- Whatever was in the two buffers. -/
theorem alike_save {g g' : SavedGlyph} (h : g.Allocated) (h' : g'.Allocated) (chars : List ℕ)
    (pos : VTermPos) : (g.save chars pos).Alike (g'.save chars pos) where
  allocated := h.storeCombineChars 0 chars
  allocated' := h'.storeCombineChars 0 chars
  string := by
    unfold save string
    change (g'.storeCombineChars 0 chars).string = (g.storeCombineChars 0 chars).string
    rw [string_storeCombineChars h', string_storeCombineChars h]
    rfl
  width := rfl
  pos := rfl

theorem take_string (g : SavedGlyph) : g.chars.take g.string.length = g.string := by
  have hprefix : g.string <+: g.chars := List.takeWhile_prefix _
  exact (List.prefix_iff_eq_take.mp hprefix).symm

/-- Combining characters behind the glyph. -/
def combine (g : SavedGlyph) (chars : List ℕ) : SavedGlyph :=
  g.storeCombineChars g.string.length chars

theorem combine_width (g : SavedGlyph) (chars : List ℕ) : (g.combine chars).width = g.width :=
  (storeCombineChars_place g _ chars).1

theorem combine_pos (g : SavedGlyph) (chars : List ℕ) : (g.combine chars).pos = g.pos :=
  (storeCombineChars_place g _ chars).2

theorem string_combine {g : SavedGlyph} (h : g.Allocated) (chars : List ℕ) :
    (g.combine chars).string =
      ((g.string ++ chars).take VTermState.combineCharsSize).takeWhile (· ≠ 0) := by
  unfold combine
  rw [string_storeCombineChars h, take_string]

theorem Alike.combine {g g' : SavedGlyph} (h : g.Alike g') (chars : List ℕ) :
    (g.combine chars).Alike (g'.combine chars) where
  allocated := h.allocated.storeCombineChars _ chars
  allocated' := h.allocated'.storeCombineChars _ chars
  string := by rw [string_combine h.allocated', string_combine h.allocated, h.string]
  width := by rw [combine_width, combine_width, h.width]
  pos := by rw [combine_pos, combine_pos, h.pos]

end SavedGlyph

/-! What is read of a decoder. -/

namespace UTF8DecoderData

/-- The code points begun agree; their sequences have the lengths a lead byte can announce. -/
def Alike (d d' : UTF8DecoderData) : Prop :=
  d'.bytesRemaining = d.bytesRemaining ∧
    (d.bytesRemaining ≠ 0 → d'.bytesTotal = d.bytesTotal ∧ d'.thisCp = d.thisCp ∧
      2 ≤ d.bytesTotal ∧ d.bytesTotal ≤ 6)

end UTF8DecoderData

/-- Two results of decoding a byte. -/
def DecodedAlike {δ : Type*} (R : δ → δ → Prop) (r r' : List ℕ × δ) : Prop :=
  r'.1 = r.1 ∧ 0 ∉ r.1 ∧ R r.2 r'.2

/-- An overlong zero is invalid. -/
theorem checkCp_ne_zero {total : ℕ} (h : 2 ≤ total ∧ total ≤ 6) (cp : ℕ) :
    checkCp total cp ≠ 0 := by
  unfold checkCp unicodeInvalid
  dsimp only
  have htotal : total = 2 ∨ total = 3 ∨ total = 4 ∨ total = 5 ∨ total = 6 := by omega
  rcases htotal with rfl | rfl | rfl | rfl | rfl
  all_goals
    simp only [decide_eq_true_eq]
    split_ifs <;> omega

theorem zero_not_mem_invalid : 0 ∉ [unicodeInvalid] := by
  rw [List.mem_singleton]
  decide

/-- What is decoded of a sequence that breaks off. -/
theorem zero_not_mem_broken (remaining : ℕ) :
    0 ∉ if remaining ≠ 0 then [unicodeInvalid] else [] := by
  split
  · exact zero_not_mem_invalid
  · exact List.not_mem_nil

theorem decodeUtf8Byte_alike {d d' : UTF8DecoderData} (h : d.Alike d') (byte : UInt8) :
    Option.Rel (DecodedAlike UTF8DecoderData.Alike) (decodeUtf8Byte d byte)
      (decodeUtf8Byte d' byte) := by
  obtain ⟨hremaining, hbegun⟩ := h
  have hstart : ∀ total cp, 2 ≤ total → total ≤ 6 → DecodedAlike UTF8DecoderData.Alike
      (startCp d total cp) (startCp d' total cp) := by
    intro total cp hlow hhigh
    unfold startCp
    rw [hremaining]
    exact ⟨rfl, zero_not_mem_broken d.bytesRemaining, rfl, fun _ => ⟨rfl, rfl, hlow, hhigh⟩⟩
  unfold decodeUtf8Byte
  rw [hremaining]
  dsimp only
  by_cases hcontrol : byte.toNat < 0x20
  · rw [if_pos hcontrol, if_pos hcontrol]
    exact .none
  rw [if_neg hcontrol, if_neg hcontrol]
  by_cases hascii : byte.toNat < 0x80
  · rw [if_pos hascii, if_pos hascii]
    refine .some ⟨rfl, ?_, rfl, fun hne => absurd rfl hne⟩
    rw [List.mem_append, List.mem_singleton]
    rintro (hbroken | hchar)
    · exact zero_not_mem_broken d.bytesRemaining hbroken
    · omega
  rw [if_neg hascii, if_neg hascii]
  by_cases hcont : byte.toNat < 0xc0
  · rw [if_pos hcont, if_pos hcont]
    by_cases hidle : d.bytesRemaining = 0
    · rw [if_pos hidle, if_pos hidle]
      exact .some ⟨rfl, zero_not_mem_invalid, hremaining, hbegun⟩
    obtain ⟨htotal, hcp, hvalid⟩ := hbegun hidle
    rw [if_neg hidle, if_neg hidle, htotal, hcp]
    by_cases hlast : d.bytesRemaining = 1
    · rw [if_pos hlast]
      refine .some ⟨rfl, ?_, rfl, fun hne => absurd rfl hne⟩
      rw [List.mem_singleton]
      intro hzero
      exact checkCp_ne_zero hvalid _ hzero.symm
    · rw [if_neg hlast]
      exact .some ⟨rfl, List.not_mem_nil, rfl, fun _ => ⟨rfl, rfl, hvalid⟩⟩
  rw [if_neg hcont, if_neg hcont]
  by_cases htwo : byte.toNat < 0xe0
  · rw [if_pos htwo, if_pos htwo]
    exact .some (hstart 2 _ (by omega) (by omega))
  rw [if_neg htwo, if_neg htwo]
  by_cases hthree : byte.toNat < 0xf0
  · rw [if_pos hthree, if_pos hthree]
    exact .some (hstart 3 _ (by omega) (by omega))
  rw [if_neg hthree, if_neg hthree]
  by_cases hfour : byte.toNat < 0xf8
  · rw [if_pos hfour, if_pos hfour]
    exact .some (hstart 4 _ (by omega) (by omega))
  rw [if_neg hfour, if_neg hfour]
  by_cases hfive : byte.toNat < 0xfc
  · rw [if_pos hfive, if_pos hfive]
    exact .some (hstart 5 _ (by omega) (by omega))
  rw [if_neg hfive, if_neg hfive]
  by_cases hsix : byte.toNat < 0xfe
  · rw [if_pos hsix, if_pos hsix]
    exact .some (hstart 6 _ (by omega) (by omega))
  · rw [if_neg hsix, if_neg hsix]
    exact .some ⟨rfl, zero_not_mem_invalid, hremaining, hbegun⟩

/-- Two decoders of one encoding; only UTF-8 keeps anything. -/
def VTermEncodingInstance.Alike (inst inst' : VTermEncodingInstance) : Prop :=
  inst'.enc = inst.enc ∧ (inst.enc = .utf8 → inst.data.Alike inst'.data)

theorem zero_not_mem_decodeTableByte {enc : VTermEncoding} {byte : UInt8} {cps : List ℕ}
    (h : decodeTableByte enc byte = some cps) : 0 ∉ cps := by
  unfold decodeTableByte at h
  dsimp only at h
  split_ifs at h with hcontrol hentry
  · cases h
    rw [List.mem_singleton]
    exact hentry.symm
  · cases h
    rw [List.mem_singleton]
    omega

theorem zero_not_mem_decodeUsasciiByte {byte : UInt8} {cps : List ℕ}
    (h : decodeUsasciiByte byte = some cps) : 0 ∉ cps := by
  unfold decodeUsasciiByte at h
  dsimp only at h
  split_ifs at h
  · cases h
    rw [List.mem_singleton]
    omega

/-- A decoder that keeps nothing. -/
theorem decodedAlike_map {inst inst' : VTermEncodingInstance} (h : inst.Alike inst')
    {decoded : Option (List ℕ)} (hzero : ∀ cps, decoded = some cps → 0 ∉ cps) :
    Option.Rel (DecodedAlike VTermEncodingInstance.Alike) (decoded.map fun cps => (cps, inst))
      (decoded.map fun cps => (cps, inst')) := by
  cases decoded with
  | none => exact .none
  | some cps => exact .some ⟨rfl, hzero cps rfl, h⟩

theorem decodeByte_alike {inst inst' : VTermEncodingInstance} (h : inst.Alike inst')
    (byte : UInt8) : Option.Rel (DecodedAlike VTermEncodingInstance.Alike) (decodeByte inst byte)
      (decodeByte inst' byte) := by
  unfold decodeByte
  rw [h.1]
  cases henc : inst.enc with
  | utf8 =>
    have hbyte := decodeUtf8Byte_alike (h.2 henc) byte
    dsimp only
    revert hbyte
    generalize decodeUtf8Byte inst.data byte = r
    generalize decodeUtf8Byte inst'.data byte = r'
    intro hbyte
    cases hbyte with
    | none => exact .none
    | some hstep =>
      obtain ⟨hcps, hzero, hdata⟩ := hstep
      exact .some ⟨hcps, hzero, rfl, fun _ => hdata⟩
  | usascii => exact decodedAlike_map h fun cps => zero_not_mem_decodeUsasciiByte
  | decDrawing => exact decodedAlike_map h fun cps => zero_not_mem_decodeTableByte
  | uk => exact decodedAlike_map h fun cps => zero_not_mem_decodeTableByte

/-- Decoders that agree decode alike and go on to agree; zero is never decoded. -/
theorem decode_alike {inst inst' : VTermEncodingInstance} (h : inst.Alike inst')
    (bytes : List UInt8) :
    (decode inst' bytes).1 = (decode inst bytes).1 ∧
      (decode inst' bytes).2.1 = (decode inst bytes).2.1 ∧ 0 ∉ (decode inst bytes).1 ∧
        (decode inst bytes).2.2.Alike (decode inst' bytes).2.2 := by
  induction bytes generalizing inst inst' with
  | nil => exact ⟨rfl, rfl, List.not_mem_nil, h⟩
  | cons byte bytes ih =>
    have hbyte := decodeByte_alike h byte
    unfold decode
    revert hbyte
    generalize decodeByte inst byte = r
    generalize decodeByte inst' byte = r'
    intro hbyte
    cases hbyte with
    | none => exact ⟨rfl, rfl, List.not_mem_nil, h⟩
    | @some r r' hstep =>
      obtain ⟨cps, next⟩ := r
      obtain ⟨cps', next'⟩ := r'
      obtain ⟨rfl, hzero, hnext⟩ := hstep
      obtain ⟨hpoints, heaten, hrest, hlast⟩ := ih hnext
      dsimp only
      refine ⟨by rw [hpoints], by rw [heaten], ?_, hlast⟩
      rw [List.mem_append]
      rintro (hfirst | hmore)
      · exact hzero hfirst
      · exact hrest hmore

namespace Decoders

variable {e e' : Decoders}

def get (e : Decoders) : VTermState.TextSlot → VTermEncodingInstance
  | .set i => e.encoding i
  | .utf8 => e.encodingUtf8

def set (e : Decoders) : VTermState.TextSlot → VTermEncodingInstance → Decoders
  | .set i, inst => { e with encoding := Function.update e.encoding i inst }
  | .utf8, inst => { e with encodingUtf8 := inst }

theorem get_set (e : Decoders) (slot other : VTermState.TextSlot) (inst : VTermEncodingInstance) :
    (e.set slot inst).get other = if other = slot then inst else e.get other := by
  cases slot with
  | utf8 =>
    cases other with
    | utf8 => rfl
    | set j => rfl
  | set i =>
    cases other with
    | utf8 => rfl
    | set j =>
      change Function.update e.encoding i inst j = _
      rw [Function.update_apply]
      simp only [VTermState.TextSlot.set.injEq]
      rfl

def Alike (e e' : Decoders) : Prop := ∀ slot, (e.get slot).Alike (e'.get slot)

theorem Alike.set (h : e.Alike e') (slot : VTermState.TextSlot) {inst inst' : VTermEncodingInstance}
    (hinst : inst.Alike inst') : (e.set slot inst).Alike (e'.set slot inst') := by
  intro other
  rw [get_set, get_set]
  split
  · exact hinst
  · exact h other

/-- A slot that gets UTF-8 begins with no code point. -/
theorem Alike.select (h : e.Alike e') (pick : Fin 4 → Option VTermEncoding) :
    (e.select pick).Alike (e'.select pick) := by
  intro slot
  cases slot with
  | utf8 => exact h .utf8
  | set i =>
    change ((pick i).elim (e.encoding i) (e.encoding i).select).Alike
      ((pick i).elim (e'.encoding i) (e'.encoding i).select)
    cases pick i with
    | none => exact h (.set i)
    | some enc =>
      refine ⟨rfl, fun hutf8 => ?_⟩
      dsimp only [Option.elim_some, VTermEncodingInstance.select] at hutf8 ⊢
      rw [if_pos hutf8, if_pos hutf8]
      exact ⟨rfl, fun hne => absurd rfl hne⟩

end Decoders

namespace VTermState

/-- States that differ in their text memory, and in calls that lead from the screen `x` and from
the screen `y` to the same one. -/
structure Similar (G : SavedGlyph → SavedGlyph → Prop) (E : Decoders → Decoders → Prop)
    (x y : VTermScreen) (s t : VTermState) : Prop where
  rest : t = { s with
    combineChars := t.combineChars
    combineWidth := t.combineWidth
    combinePos := t.combinePos
    encoding := t.encoding
    encodingUtf8 := t.encodingUtf8
    calls := t.calls }
  glyph : G s.savedGlyph t.savedGlyph
  decoders : E s.decoders t.decoders
  calls : run VTermScreen.exec y t.calls = run VTermScreen.exec x s.calls

variable {G G' : SavedGlyph → SavedGlyph → Prop} {E E' : Decoders → Decoders → Prop}
  {x y : VTermScreen} {s t : VTermState}

theorem similar_onto (b : VTermState) {g g' : SavedGlyph} {e e' : Decoders}
    {cs cs' : List ScreenCall} (hg : G g g') (he : E e e')
    (hcs : run VTermScreen.exec y cs' = run VTermScreen.exec x cs) :
    Similar G E x y (b.onto g e cs) (b.onto g' e' cs') where
  rest := rfl
  glyph := hg
  decoders := he
  calls := by rw [onto_calls, onto_calls, run_append, run_append, hcs]

/-- Both states over one that has made no calls. -/
theorem Similar.exists_onto (h : Similar G E x y s t) : ∃ b : VTermState,
    s = b.onto s.savedGlyph s.decoders s.calls ∧ t = b.onto t.savedGlyph t.decoders t.calls := by
  refine ⟨{ s with calls := [] }, ?_, ?_⟩
  · unfold onto
    rw [List.append_nil]
    rfl
  · unfold onto
    rw [List.append_nil]
    exact h.rest

theorem Similar.isUtf8 (h : Similar G E x y s t) : t.isUtf8 = s.isUtf8 := by
  rw [h.rest]

/-- A function that leaves the text memory alone. -/
theorem Similar.map (h : Similar G E x y s t) {f : VTermState → VTermState}
    (hf : ∀ b g e cs, f (onto b g e cs) = (f b).onto g e cs) : Similar G E x y (f s) (f t) := by
  obtain ⟨b, hs, ht⟩ := h.exists_onto
  have hsimilar := similar_onto (f b) h.glyph h.decoders h.calls
  rw [← hf, ← hf, ← hs, ← ht] at hsimilar
  exact hsimilar

theorem Similar.selects (h : Similar G Decoders.Alike x y s t) {f : VTermState → VTermState}
    (hf : ∀ b : VTermState, b.Selects f) : Similar G Decoders.Alike x y (f s) (f t) := by
  obtain ⟨b, hs, ht⟩ := h.exists_onto
  obtain ⟨pick, hpick⟩ := hf b
  have hsimilar := similar_onto (f b) h.glyph (h.decoders.select pick) h.calls
  rw [← hpick, ← hpick, ← hs, ← ht] at hsimilar
  exact hsimilar

/-! Glyphs. -/

section Glyphs
variable (s : VTermState) (g : SavedGlyph) (e : Decoders) (cs : List ScreenCall)

theorem storeCombine_onto (i c : ℕ) :
    (s.onto g e cs).storeCombine i c = s.onto (g.storeCombine i c) e cs := by
  unfold storeCombine SavedGlyph.storeCombine
  dsimp only
  split
  · rfl
  · rfl

theorem storeCombineChars_onto (i : ℕ) (chars : List ℕ) :
    (s.onto g e cs).storeCombineChars i chars = s.onto (g.storeCombineChars i chars) e cs := by
  induction chars generalizing g i with
  | nil => exact storeCombine_onto s g e cs i 0
  | cons c chars ih =>
    rw [storeCombineChars, storeCombine_onto]
    exact ih (g.storeCombine i c) (i + 1)

theorem wrapPhantom_onto : (s.onto g e cs).wrapPhantom = s.wrapPhantom.onto g e cs := by
  unfold wrapPhantom
  change (if s.atPhantom then _ else s.onto g e cs) = _
  split
  · dsimp only
    rw [linefeed_onto]
    rfl
  · rfl

theorem insertRoom_onto : (s.onto g e cs).insertRoom = s.insertRoom.onto g e cs := by
  unfold insertRoom
  change (if s.mode.insert then (s.onto g e cs).scroll _ 0 (-1) else s.onto g e cs) = _
  rw [scroll_onto, ite_onto]
  rfl

theorem advance_onto (width : ℤ) :
    (s.onto g e cs).advance width = (s.advance width).onto g e cs := by
  unfold advance
  change (if s.cols ≤ s.pos.col + width then if s.mode.autowrap then _ else s.onto g e cs
    else _) = _
  split_ifs
  · rfl
  · rfl
  · rfl

theorem saveGlyph_onto (chars : List ℕ) (last : Bool) :
    (s.onto g e cs).saveGlyph chars last =
      s.onto (if last then g.save chars s.pos else g) e cs := by
  unfold saveGlyph
  rw [storeCombineChars_onto]
  cases last with
  | true => rfl
  | false => rfl

/-- Where a glyph is put. -/
def glyphPos (s : VTermState) : VTermPos := s.wrapPhantom.insertRoom.pos

/-- A glyph reads nothing of the text memory, and saves itself if it is the last. -/
theorem glyphStep_onto (chars : List ℕ) (last : Bool) :
    (s.onto g e cs).glyphStep (chars, last) =
      (s.glyphStep (chars, last)).onto (if last then g.save chars s.glyphPos else g) e cs := by
  have hown : ∀ t : VTermState, t.saveGlyph chars last =
      t.onto (if last then t.savedGlyph.save chars t.pos else t.savedGlyph) t.decoders [] :=
    fun t => saveGlyph_onto t t.savedGlyph t.decoders [] chars last
  unfold glyphStep putGlyph
  dsimp only
  rw [wrapPhantom_onto, insertRoom_onto, onto_pos, putglyph, call_onto, saveGlyph_onto,
    advance_onto, hown, advance_onto, onto_onto, List.append_nil]
  rfl

end Glyphs

/-- Both buffers are allocated, whatever they hold. -/
def BothAllocated (g g' : SavedGlyph) : Prop := g.Allocated ∧ g'.Allocated

theorem Similar.weaken (h : Similar SavedGlyph.Alike E x y s t) : Similar BothAllocated E x y s t :=
  { h with glyph := ⟨h.glyph.allocated, h.glyph.allocated'⟩ }

theorem Similar.glyphStep (h : Similar G E x y s t) (chars : List ℕ) :
    Similar G E x y (s.glyphStep (chars, false)) (t.glyphStep (chars, false)) :=
  h.map (f := fun s => s.glyphStep (chars, false)) fun b g e cs =>
    glyphStep_onto b g e cs chars false

/-- Behind the last glyph of a run it does not matter what was saved before. -/
theorem Similar.glyphStep_last (h : Similar BothAllocated E x y s t) (chars : List ℕ) :
    Similar SavedGlyph.Alike E x y (s.glyphStep (chars, true)) (t.glyphStep (chars, true)) := by
  obtain ⟨b, hs, ht⟩ := h.exists_onto
  have hsaved := SavedGlyph.alike_save h.glyph.1 h.glyph.2 chars b.glyphPos
  have hsimilar := similar_onto (b.glyphStep (chars, true)) hsaved h.decoders h.calls
  have hstep := fun g e cs => glyphStep_onto b g e cs chars true
  simp only [if_true] at hstep
  rw [← hstep, ← hstep, ← hs, ← ht] at hsimilar
  exact hsimilar

theorem Similar.run_markLast (h : Similar BothAllocated E x y s t) {l : List (List ℕ)} (hl : l ≠ []) :
    Similar SavedGlyph.Alike E x y (run VTermState.glyphStep s (markLast l))
      (run VTermState.glyphStep t (markLast l)) := by
  induction l generalizing s t with
  | nil => contradiction
  | cons glyph more ih =>
    cases more with
    | nil => exact h.glyphStep_last glyph
    | cons next more =>
      have hmark : markLast (glyph :: next :: more) = (glyph, false) :: markLast (next :: more) := rfl
      rw [hmark]
      exact ih (h.glyphStep glyph) (List.cons_ne_nil next more)

theorem Similar.putGlyphs (h : Similar SavedGlyph.Alike E x y s t) (codepoints : List ℕ) :
    Similar SavedGlyph.Alike E x y (s.putGlyphs codepoints) (t.putGlyphs codepoints) := by
  unfold VTermState.putGlyphs
  cases hglyphs : VTermState.glyphs codepoints with
  | nil => exact h
  | cons glyph more => exact h.weaken.run_markLast (List.cons_ne_nil glyph more)

/-- Add combining characters to the last glyph and put it again. -/
def combineWith (s : VTermState) (chars : List ℕ) : VTermState :=
  let s := s.storeCombineChars s.combineString.length chars
  s.putglyph s.combineString s.combineWidth s.combinePos

theorem combineSplit_of_combines {codepoints : List ℕ} (h : s.Combines codepoints) :
    s.combineSplit codepoints = (s.combineWith (codepoints.takeWhile unicodeIsCombining),
      codepoints.dropWhile unicodeIsCombining) := if_pos h

theorem combineSplit_of_not {codepoints : List ℕ} (h : ¬ s.Combines codepoints) :
    s.combineSplit codepoints = (s, codepoints) := if_neg h

theorem combineWith_onto (b : VTermState) (g : SavedGlyph) (e : Decoders) (cs : List ScreenCall)
    (chars : List ℕ) :
    (b.onto g e cs).combineWith chars =
      (b.putglyph (g.combine chars).string g.width g.pos).onto (g.combine chars) e cs := by
  unfold combineWith
  rw [storeCombineChars_onto]
  change ((b.onto (g.combine chars) e cs).putglyph (g.combine chars).string
    (g.combine chars).width (g.combine chars).pos) = _
  rw [putglyph, call_onto, SavedGlyph.combine_width, SavedGlyph.combine_pos]
  rfl

theorem Similar.combineWith (h : Similar SavedGlyph.Alike E x y s t) (chars : List ℕ) :
    Similar SavedGlyph.Alike E x y (s.combineWith chars) (t.combineWith chars) := by
  obtain ⟨b, hs, ht⟩ := h.exists_onto
  have hcombined := h.glyph.combine chars
  rw [hs, ht, combineWith_onto, combineWith_onto, hcombined.string, h.glyph.width, h.glyph.pos]
  exact similar_onto _ hcombined h.decoders h.calls

theorem Similar.combines_iff (h : Similar SavedGlyph.Alike E x y s t) (codepoints : List ℕ) :
    t.Combines codepoints ↔ s.Combines codepoints := by
  have hpos : t.pos = s.pos := by rw [h.rest]
  have hglyph : t.combinePos = s.combinePos ∧ t.combineWidth = s.combineWidth :=
    ⟨h.glyph.pos, h.glyph.width⟩
  unfold Combines
  rw [hpos, hglyph.1, hglyph.2]

theorem Similar.putPoints (h : Similar SavedGlyph.Alike E x y s t) (codepoints : List ℕ) :
    Similar SavedGlyph.Alike E x y (s.putPoints codepoints) (t.putPoints codepoints) := by
  unfold VTermState.putPoints
  by_cases hs : s.Combines codepoints
  · rw [combineSplit_of_combines hs, combineSplit_of_combines ((h.combines_iff codepoints).mpr hs)]
    exact (h.combineWith _).putGlyphs _
  · rw [combineSplit_of_not hs, combineSplit_of_not (mt (h.combines_iff codepoints).mp hs)]
    exact h.putGlyphs codepoints

theorem setEncodingAt_onto (b : VTermState) (g : SavedGlyph) (e : Decoders) (cs : List ScreenCall)
    (slot : TextSlot) (inst : VTermEncodingInstance) :
    (b.onto g e cs).setEncodingAt slot inst = b.onto g (e.set slot inst) cs := by
  cases slot with
  | set i => rfl
  | utf8 => rfl

theorem encodingAt_eq (s : VTermState) (slot : TextSlot) :
    s.encodingAt slot = s.decoders.get slot := by
  cases slot with
  | set i => rfl
  | utf8 => rfl

theorem Similar.setEncodingAt (h : Similar G E x y s t) (slot : TextSlot)
    {inst inst' : VTermEncodingInstance}
    (hset : E' (s.decoders.set slot inst) (t.decoders.set slot inst')) :
    Similar G E' x y (s.setEncodingAt slot inst) (t.setEncodingAt slot inst') := by
  obtain ⟨b, hs, ht⟩ := h.exists_onto
  rw [hs, ht, setEncodingAt_onto, setEncodingAt_onto]
  exact similar_onto b h.glyph hset h.calls

/-- The same text does the same in both. -/
theorem Similar.onText (h : Similar SavedGlyph.Alike Decoders.Alike x y s t) (bytes : List UInt8) :
    (t.onText bytes).2 = (s.onText bytes).2 ∧
      Similar SavedGlyph.Alike Decoders.Alike x y (s.onText bytes).1 (t.onText bytes).1 := by
  have hpos : t.pos = s.pos := by rw [h.rest]
  have hslot : t.textSlot (bytes.headD 0) = s.textSlot (bytes.headD 0) := by
    rw [h.rest]
    rfl
  have hinst := h.decoders (s.textSlot (bytes.headD 0))
  rw [← encodingAt_eq, ← encodingAt_eq] at hinst
  obtain ⟨hpoints, heaten, -, hlast⟩ := decode_alike hinst bytes
  unfold VTermState.onText
  dsimp only
  rw [hslot, hpoints, hpos]
  refine ⟨heaten, ?_⟩
  have hset := h.setEncodingAt (s.textSlot (bytes.headD 0)) (h.decoders.set _ hlast)
  exact (hset.putPoints _).map (f := fun t => t.updatecursor s.pos false) fun b g e cs =>
    updatecursor_onto b g e cs s.pos false

theorem Similar.stateCall (h : Similar SavedGlyph.Alike Decoders.Alike x y s t) (c : ParserCall) :
    Similar SavedGlyph.Alike Decoders.Alike x y (s.stateCall c) (t.stateCall c) := by
  by_cases htext : ∃ bytes, c = .text bytes
  · obtain ⟨bytes, rfl⟩ := htext
    exact (h.onText bytes).2
  · exact h.selects fun b => selects_stateCall b fun bytes hc => htext ⟨bytes, hc⟩

end VTermState

/-! Displays. -/

/-- The same is shown, and the same is done from here on. -/
def Display.Alike (d e : Display) : Prop :=
  VTermState.Similar SavedGlyph.Alike Decoders.Alike d.screen e.screen { d.state with calls := [] }
    { e.state with calls := [] }

/-- The screens execute the calls. -/
theorem VTermState.Similar.execute {G : SavedGlyph → SavedGlyph → Prop}
    {E : Decoders → Decoders → Prop} {x y : VTermScreen} {s t : VTermState}
    (h : Similar G E x y s t) :
    Similar G E (run VTermScreen.exec x s.calls) (run VTermScreen.exec y t.calls)
      { s with calls := [] } { t with calls := [] } where
  rest := congrArg (fun u : VTermState => { u with calls := [] }) h.rest
  glyph := h.glyph
  decoders := h.decoders
  calls := h.calls

theorem Display.Alike.call {d e : Display} (h : d.Alike e) (c : ParserCall) :
    (d.call c).Alike (e.call c) := (VTermState.Similar.stateCall h c).execute

theorem Display.Alike.isUtf8 {d e : Display} (h : d.Alike e) : e.state.isUtf8 = d.state.isUtf8 := by
  have hstate := VTermState.Similar.isUtf8 h
  exact hstate

/-- The parser keeps displays alike. -/
theorem parserCallbacks_related : parserCallbacks.Related parserCallbacks Display.Alike where
  isUtf8 h := h.isUtf8
  text bytes h := h.call (.text bytes)
  eaten bytes h := (VTermState.Similar.onText h bytes).1
  control c h := h.call (.control c)
  escape str h := h.call (.escape str)
  csi str c h := h.call (.csi str c)
  osc str h := h.call (.osc str)
  dcs str h := h.call (.dcs str)

end Jterm.Vterm
