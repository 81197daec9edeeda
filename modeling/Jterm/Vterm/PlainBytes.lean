import Jterm.Vterm.Agree
import Jterm.Vterm.Chunks
import Jterm.Vterm.PlainText

/-!
The bytes of plain text, in whatever pieces they are received: a cut may be in a sequence of UTF-8,
and a run of text goes to the decoder that its first byte selects.
-/
namespace Jterm.Vterm

open Runs Typewriter

def controlKey (byte : UInt8) : Option (Key ℕ) :=
  if byte = 0x0d then some .ret
  else if byte = 0x0a then some .feed
  else if byte = 0x08 then some .back
  else none

def keyBytes : Key ℕ → List UInt8
  | .char cp => fillUtf8 cp
  | .ret => [0x0d]
  | .feed => [0x0a]
  | .back => [0x08]

theorem Follows.onControl {o : Origin} {x : VTermScreen}
    {s : VTermState} {p : Sheet VTermScreenCell} (h : Follows o x s p) {byte : UInt8}
    {k : Key ℕ} (hkey : controlKey byte = some k) (hfeeds : p.Feeds (k.map (typedCell o.blank))) :
    Follows o x (s.onControl byte) (p.press (k.map (typedCell o.blank))) := by
  have hcol : s.pos.col = p.col := congrArg VTermPos.col h.heads.pos
  unfold controlKey at hkey
  split_ifs at hkey with hret hfeed hback
  · subst hret
    rw [← Option.some.inj hkey]
    exact h.toCol (q := p.ret) (Sheet.placed_press h.shown.placed .ret) rfl rfl rfl rfl
      fun hzero => h.not_full hzero.symm
  · subst hfeed
    rw [← Option.some.inj hkey] at hfeeds ⊢
    have hnewline : s.linefeed.mode.newline = false := h.linefeed.heads.newline
    have hcontrol : s.onControl 0x0a = s.linefeed.updatecursor s.pos true := by
      change (if s.linefeed.mode.newline then s.linefeed.carriageReturn
        else s.linefeed).updatecursor s.pos true = _
      rw [hnewline]
      rfl
    rw [hcontrol]
    exact h.linefeed.updatecursor s.pos fun _ => hfeeds
  · subst hback
    rw [← Option.some.inj hkey]
    change Follows o x ((if 0 < s.pos.col then _ else s).updatecursor s.pos true) p.back
    have hplaced := Sheet.placed_press h.shown.placed .back
    unfold Sheet.press Sheet.back at hplaced
    unfold Sheet.back
    dsimp only at hplaced
    by_cases hpos : 0 < p.col
    · rw [if_pos hpos] at hplaced ⊢
      rw [if_pos (by omega), hcol]
      exact h.toCol hplaced rfl rfl rfl rfl fun hsame => by
        have hless : p.col - 1 = p.col := hsame
        omega
    · rw [if_neg hpos, if_neg (by omega)]
      have := h.shown.placed.col
      exact h.updatecursor s.pos fun _ => h.not_full (by omega)

theorem controlKey_low {byte : UInt8} {k : Key ℕ} (h : controlKey byte = some k) :
    byte.toNat < 0x20 := by
  unfold controlKey at h
  split_ifs at h with hret hfeed hback
  · rw [hret]
    decide
  · rw [hfeed]
    decide
  · rw [hback]
    decide

theorem decode_low {dec : VTermEncodingInstance} (hdec : dec.enc = .utf8 ∨ dec.enc = .usascii)
    {byte : UInt8} (hlow : byte.toNat < 0x20) (bytes : List UInt8) :
    decode dec (byte :: bytes) = ([], 0, dec) := by
  refine decode_cons_none ?_ bytes
  unfold decodeByte
  rcases hdec with hutf8 | hascii
  · rw [hutf8]
    simp [decodeUtf8Byte, hlow]
  · rw [hascii]
    simp [decodeUsasciiByte, hlow]

/-- A byte without the high bit is its own character, between two sequences. -/
theorem decodeByte_ascii {inst next : VTermEncodingInstance} (hready : Ready inst) {byte : UInt8}
    (hbyte : byte < 0x80) {cps : List ℕ} (h : decodeByte inst byte = some (cps, next)) :
    0x20 ≤ byte.toNat ∧ cps = [byte.toNat] ∧ next = inst := by
  obtain ⟨enc, remaining, total, cp⟩ := inst
  obtain ⟨henc, hzero⟩ := hready
  dsimp only at henc hzero
  subst henc hzero
  have hhigh : byte.toNat < 0x80 := hbyte
  rw [decodeByte_utf8] at h
  unfold decodeUtf8Byte at h
  dsimp only at h
  by_cases hlow : byte.toNat < 0x20
  · rw [if_pos hlow] at h
    contradiction
  · rw [if_neg hlow, if_pos hhigh] at h
    simp only [Option.map_some, Option.some.injEq, Prod.mk.injEq] at h
    obtain ⟨rfl, rfl⟩ := h
    exact ⟨by omega, rfl, rfl⟩

/-- Bytes in which a UTF-8 decoder finds these keys; a sequence is not broken off. -/
inductive Typed : VTermEncodingInstance → List UInt8 → List (Key ℕ) → VTermEncodingInstance → Prop
  | nil (inst : VTermEncodingInstance) : Typed inst [] [] inst
  | text {inst next last : VTermEncodingInstance} {byte : UInt8} {bytes : List UInt8} {cps : List ℕ}
      {ks : List (Key ℕ)} (hready : byte < 0x80 → Ready inst)
      (hbyte : decodeByte inst byte = some (cps, next)) (hcps : ∀ cp ∈ cps, Printable cp)
      (hrest : Typed next bytes ks last) : Typed inst (byte :: bytes) (cps.map .char ++ ks) last
  | control {inst last : VTermEncodingInstance} {byte : UInt8} {bytes : List UInt8} {k : Key ℕ}
      {ks : List (Key ℕ)} (hready : Ready inst) (hkey : controlKey byte = some k)
      (hrest : Typed inst bytes ks last) : Typed inst (byte :: bytes) (k :: ks) last

namespace Typed

variable {inst last : VTermEncodingInstance} {bytes more : List UInt8} {ks : List (Key ℕ)}

/-- The bytes may be cut anywhere. -/
theorem cut (h : Typed inst (bytes ++ more) ks last) :
    ∃ before after mid, ks = before ++ after ∧ Typed inst bytes before mid ∧ Typed mid more after last := by
  induction bytes generalizing inst ks with
  | nil => exact ⟨[], ks, inst, rfl, .nil inst, h⟩
  | cons byte bytes ih =>
    cases h with
    | text hready hbyte hcps hrest =>
      obtain ⟨before, after, mid, rfl, hfirst, hlast⟩ := ih hrest
      exact ⟨_, after, mid, (List.append_assoc _ _ _).symm, .text hready hbyte hcps hfirst, hlast⟩
    | control hready hkey hrest =>
      obtain ⟨before, after, mid, rfl, hfirst, hlast⟩ := ih hrest
      exact ⟨_ :: before, after, mid, rfl, .control hready hkey hfirst, hlast⟩

/-- Bytes with the high bit that a decoder takes to the last. -/
theorem of_decode {cps : List ℕ} (hhigh : ∀ byte ∈ bytes, 0x80 ≤ byte)
    (hdecode : decode inst bytes = (cps, bytes.length, last)) (hcps : ∀ cp ∈ cps, Printable cp) :
    Typed inst bytes (cps.map .char) last := by
  induction bytes generalizing inst cps with
  | nil =>
    obtain ⟨rfl, -, rfl⟩ := hdecode
    exact .nil _
  | cons byte bytes ih =>
    cases hbyte : decodeByte inst byte with
    | none =>
      rw [decode_cons_none hbyte] at hdecode
      simp at hdecode
    | some found =>
      obtain ⟨first, next⟩ := found
      rw [decode_cons_some hbyte] at hdecode
      simp only [Prod.mk.injEq, List.length_cons, Nat.add_right_cancel_iff] at hdecode
      obtain ⟨rfl, hlength, hlast⟩ := hdecode
      have hrest := ih (fun b hb => hhigh b (List.mem_cons_of_mem byte hb))
        (Prod.ext rfl (Prod.ext hlength hlast)) fun cp hcp => hcps cp (List.mem_append_right first hcp)
      rw [List.map_append]
      exact .text (fun hlow => absurd hlow (UInt8.not_lt.mpr (hhigh byte List.mem_cons_self))) hbyte
        (fun cp hcp => hcps cp (List.mem_append_left _ hcp)) hrest

theorem append {mid : VTermEncodingInstance} {before after : List (Key ℕ)}
    (h : Typed inst bytes before mid) (hmore : Typed mid more after last) :
    Typed inst (bytes ++ more) (before ++ after) last := by
  induction h with
  | nil => exact hmore
  | text hready hbyte hcps hrest ih =>
    rw [List.append_assoc]
    exact .text hready hbyte hcps (ih hmore)
  | control hready hkey hrest ih => exact .control hready hkey (ih hmore)

theorem high_toUInt8 {n : ℕ} (hlow : 0x80 ≤ n) (hhigh : n < 0x100) : 0x80 ≤ n.toUInt8 := by
  rw [UInt8.le_iff_toNat_le, toUInt8_toNat hhigh]
  exact hlow

theorem fillTail_high (b cp : ℕ) : ∀ byte ∈ fillTail b cp, 0x80 ≤ byte := by
  induction b generalizing cp with
  | zero => simp [fillTail]
  | succ b ih =>
    intro byte hbyte
    unfold fillTail at hbyte
    rcases List.mem_append.mp hbyte with hfirst | hlast
    · exact ih _ byte hfirst
    · rw [List.mem_singleton.mp hlast]
      exact high_toUInt8 (by omega) (by omega)

theorem fillUtf8_high {cp : ℕ} (hcp : 0x80 ≤ cp) (hend : cp < 2 ^ 31) :
    ∀ byte ∈ fillUtf8 cp, 0x80 ≤ byte := by
  have hbounds := utf8Seqlen_bounds hend
  have hmany : utf8Seqlen cp ≠ 1 := by
    unfold utf8Seqlen
    split_ifs <;> omega
  unfold fillUtf8
  intro byte hbyte
  rcases List.mem_cons.mp hbyte with rfl | htail
  · unfold fillHead
    rw [if_neg hmany]
    split_ifs
    all_goals exact high_toUInt8 (by omega) (by omega)
  · exact fillTail_high _ cp byte htail

/-- A character between two sequences. -/
theorem char {cp : ℕ} (hready : Ready inst) (hcp : Printable cp) :
    ∃ last, Typed inst (fillUtf8 cp) [.char cp] last ∧ Ready last := by
  obtain ⟨next, hdecode, hnext⟩ := decode_fillUtf8 hready hcp.1
  refine ⟨next, ?_, hnext⟩
  have hcps : ∀ c ∈ [cp], Printable c := List.forall_mem_singleton.mpr hcp
  by_cases hhigh : 0x80 ≤ cp
  · exact of_decode (fillUtf8_high hhigh hcp.1.2.1) hdecode hcps
  · have hone : fillUtf8 cp = [fillHead 1 cp] := by
      have hlength : utf8Seqlen cp = 1 := if_pos (by omega)
      unfold fillUtf8
      rw [hlength]
      simp [fillTail]
    rw [hone] at hdecode ⊢
    cases hbyte : decodeByte inst (fillHead 1 cp) with
    | none =>
      rw [decode_cons_none hbyte] at hdecode
      simp at hdecode
    | some found =>
      rw [decode_singleton hbyte] at hdecode
      simp only [List.length_singleton, Prod.mk.injEq, true_and] at hdecode
      obtain ⟨hfound, rfl⟩ := hdecode
      have htext := Typed.text (fun _ => hready) hbyte (by rw [hfound]; exact hcps)
        (.nil found.2)
      rw [hfound] at htext
      exact htext

/-- The bytes of the keys. -/
theorem keys (hready : Ready inst) {ks : List (Key ℕ)} (hks : ∀ cp, .char cp ∈ ks → Printable cp) :
    ∃ last, Typed inst (ks.flatMap keyBytes) ks last ∧ Ready last := by
  induction ks generalizing inst with
  | nil => exact ⟨inst, .nil inst, hready⟩
  | cons k ks ih =>
    have hmore : ∀ cp, .char cp ∈ ks → Printable cp := fun cp hcp =>
      hks cp (List.mem_cons_of_mem k hcp)
    cases k with
    | char cp =>
      obtain ⟨next, hfirst, hnext⟩ := char hready (hks cp List.mem_cons_self)
      obtain ⟨last, hrest, hlast⟩ := ih hnext hmore
      exact ⟨last, hfirst.append hrest, hlast⟩
    | ret | feed | back =>
      obtain ⟨last, hrest, hlast⟩ := ih hready hmore
      exact ⟨last, .control hready rfl hrest, hlast⟩

/-- The UTF-8 decoder stops at a control. -/
theorem utf8_run (h : Typed inst bytes ks last) (hutf8 : inst.enc = .utf8) :
    ∃ piece more cps after mid, bytes = piece ++ more ∧
      decode inst bytes = (cps, piece.length, mid) ∧ ks = cps.map .char ++ after ∧
        (∀ cp ∈ cps, Printable cp) ∧ Typed mid more after last := by
  induction h with
  | nil inst => exact ⟨[], [], [], [], inst, rfl, rfl, rfl, by simp, .nil inst⟩
  | @text inst next last byte bytes cps ks hready hbyte hcps hrest ih =>
    obtain ⟨piece, more, points, after, mid, rfl, hdecode, rfl, hpoints, hmore⟩ :=
      ih ((decodeByte_enc hbyte).trans hutf8)
    refine ⟨byte :: piece, more, cps ++ points, after, mid, rfl, ?_, ?_, ?_, hmore⟩
    · rw [decode_cons_some hbyte, hdecode]
      rfl
    · rw [List.map_append, List.append_assoc]
    · intro cp hcp
      exact (List.mem_append.mp hcp).elim (hcps cp) (hpoints cp)
  | @control inst last byte bytes k ks hready hkey hrest ih =>
    exact ⟨[], byte :: bytes, [], k :: ks, inst, rfl,
      decode_low (.inl hutf8) (controlKey_low hkey) bytes, rfl, by simp, .control hready hkey hrest⟩

/-- US-ASCII stops at the high bit too, and reads what UTF-8 would. -/
theorem usascii_run (h : Typed inst bytes ks last) (hready : Ready inst) {dec : VTermEncodingInstance}
    (hdec : dec.enc = .usascii) :
    ∃ piece more cps after, bytes = piece ++ more ∧
      decode dec bytes = (cps, piece.length, dec) ∧ ks = cps.map .char ++ after ∧
        (∀ cp ∈ cps, Printable cp) ∧ Typed inst more after last := by
  induction h with
  | nil inst => exact ⟨[], [], [], [], rfl, rfl, rfl, by simp, .nil inst⟩
  | @text inst next last byte bytes cps ks hlow hbyte hcps hrest ih =>
    by_cases hhigh : byte < 0x80
    · obtain ⟨hge, rfl, rfl⟩ := decodeByte_ascii hready hhigh hbyte
      obtain ⟨piece, more, points, after, rfl, hdecode, rfl, hpoints, hmore⟩ := ih hready
      have hascii : decodeByte dec byte = some ([byte.toNat], dec) := by
        have hlt : byte.toNat < 0x80 := hhigh
        unfold decodeByte
        rw [hdec]
        simp [decodeUsasciiByte, hge, hlt]
      refine ⟨byte :: piece, more, byte.toNat :: points, after, rfl, ?_, rfl, ?_, hmore⟩
      · rw [decode_cons_some hascii, hdecode]
        rfl
      · exact List.forall_mem_cons.mpr ⟨hcps _ List.mem_cons_self, hpoints⟩
    · refine ⟨[], byte :: bytes, [], _, rfl, ?_, rfl, by simp, .text hlow hbyte hcps hrest⟩
      have hge : 0x80 ≤ byte.toNat := UInt8.not_lt.mp hhigh
      refine decode_cons_none ?_ bytes
      unfold decodeByte
      rw [hdec]
      simp [decodeUsasciiByte, hge]
  | @control inst last byte bytes k ks hready hkey hrest ih =>
    exact ⟨[], byte :: bytes, [], k :: ks, rfl,
      decode_low (.inr hdec) (controlKey_low hkey) bytes, rfl, by simp, .control hready hkey hrest⟩

end Typed

/-! What on_text does to the decoders. -/

/-- What decides how bytes are decoded. -/
def VTermState.decoding (s : VTermState) :
    (Fin 4 → VTermEncodingInstance) × VTermEncodingInstance × Bool × Fin 4 :=
  (s.encoding, s.encodingUtf8, s.isUtf8, s.glSet)

theorem decoding_linefeed (s : VTermState) : s.linefeed.decoding = s.decoding := by
  unfold VTermState.linefeed VTermState.scroll
  split_ifs
  all_goals rfl

theorem decoding_putGlyph (s : VTermState) (chars : List ℕ) (last : Bool) :
    (s.putGlyph chars last).decoding = s.decoding := by
  have hwrap : s.wrapPhantom.decoding = s.decoding := by
    unfold VTermState.wrapPhantom
    split
    · exact decoding_linefeed s
    · rfl
  have hroom : s.wrapPhantom.insertRoom.decoding = s.decoding := by
    refine Eq.trans ?_ hwrap
    unfold VTermState.insertRoom VTermState.scroll
    split_ifs
    all_goals rfl
  have hsave : ∀ t : VTermState, (t.saveGlyph chars last).decoding = t.decoding := by
    intro t
    obtain ⟨buffer, hbuffer⟩ := Follows.storeCombineChars_frame t 0 chars
    unfold VTermState.saveGlyph
    rw [hbuffer]
    split
    · rfl
    · rfl
  have hadvance : ∀ (t : VTermState) (width : ℤ), (t.advance width).decoding = t.decoding := by
    intro t width
    unfold VTermState.advance
    split_ifs
    all_goals rfl
  unfold VTermState.putGlyph
  dsimp only
  rw [hadvance, hsave]
  exact hroom

theorem decoding_putPoints (s : VTermState) (cps : List ℕ) :
    (s.putPoints cps).decoding = s.decoding := by
  have hsplit : (s.combineSplit cps).1.decoding = s.decoding := by
    unfold VTermState.combineSplit
    split
    · obtain ⟨buffer, hbuffer⟩ := Follows.storeCombineChars_frame s s.combineString.length
        (cps.takeWhile unicodeIsCombining)
      dsimp only
      rw [hbuffer]
      rfl
    · rfl
  exact invariant_of_step VTermState.glyphStep (fun t => t.decoding = s.decoding)
    (fun t g ht => (decoding_putGlyph t g.1 g.2).trans ht) _ hsplit

theorem decoding_updatecursor (s : VTermState) (oldpos : VTermPos) (cancelPhantom : Bool) :
    (s.updatecursor oldpos cancelPhantom).decoding = s.decoding := by
  unfold VTermState.updatecursor
  split
  · rfl
  · rfl

theorem decoding_onControl (s : VTermState) {byte : UInt8} {k : Key ℕ}
    (hkey : controlKey byte = some k) : (s.onControl byte).decoding = s.decoding := by
  unfold controlKey at hkey
  split_ifs at hkey with hret hfeed hback
  · subst hret
    exact decoding_updatecursor s.carriageReturn s.pos true
  · subst hfeed
    change VTermState.decoding (VTermState.updatecursor (if s.linefeed.mode.newline
      then s.linefeed.carriageReturn else s.linefeed) s.pos true) = _
    rw [decoding_updatecursor]
    split
    · exact decoding_linefeed s
    · exact decoding_linefeed s
  · subst hback
    change VTermState.decoding (VTermState.updatecursor (if 0 < s.pos.col then _ else s) s.pos
      true) = _
    rw [decoding_updatecursor]
    split
    · rfl
    · rfl

/-! The terminal. -/

/-- Between two bytes of plain text. -/
structure Reads (o : Origin) (d : Display)
    (inst : VTermEncodingInstance) (p : Sheet VTermScreenCell) : Prop where
  idle : d.state.calls = []
  follows : Follows o d.screen d.state p
  utf8 : d.state.isUtf8 = true
  decoder : d.state.encodingUtf8 = inst
  enc : inst.enc = .utf8
  gl : d.state.glSet = 0
  ascii : (d.state.encoding 0).enc = .usascii

namespace Reads

variable {o : Origin} {d : Display}
  {inst mid : VTermEncodingInstance} {p q : Sheet VTermScreenCell}

theorem call (h : Reads o d inst p) {c : ParserCall} {t : VTermState}
    (ht : d.state.stateCall c = t) (hfollows : Follows o d.screen t q)
    (hutf8 : t.isUtf8 = true) (hdecoder : t.encodingUtf8 = mid) (henc : mid.enc = .utf8)
    (hgl : t.glSet = 0) (hascii : (t.encoding 0).enc = .usascii) :
    Reads o (d.call c) mid q := by
  have hcall : d.call c =
      { state := { t with calls := [] }
        screen := run VTermScreen.exec d.screen t.calls } := by
    subst ht
    unfold Display.call Display.apply
    rw [VTermState.calls_nil_eq h.idle]
  rw [hcall]
  obtain ⟨⟨hwrap, hinsert, hnewline, hregion, hcols, hpos, hphantom⟩, hshown, hrows⟩ := hfollows
  exact ⟨rfl, ⟨⟨hwrap, hinsert, hnewline, hregion, hcols, hpos, hphantom⟩, hshown, hrows⟩, hutf8,
    hdecoder, henc, hgl, hascii⟩

theorem follows_setEncodingAt {x : VTermScreen} {s : VTermState} (h : Follows o x s p)
    (slot : VTermState.TextSlot) (dec : VTermEncodingInstance) :
    Follows o x (s.setEncodingAt slot dec) p := by
  obtain ⟨⟨hwrap, hinsert, hnewline, hregion, hcols, hpos, hphantom⟩, hshown, hrows⟩ := h
  cases slot with
  | set i => exact ⟨⟨hwrap, hinsert, hnewline, hregion, hcols, hpos, hphantom⟩, hshown, hrows⟩
  | utf8 => exact ⟨⟨hwrap, hinsert, hnewline, hregion, hcols, hpos, hphantom⟩, hshown, hrows⟩

/-- A run of text, by what its decoder makes of it. -/
theorem text (h : Reads o d inst p) {piece : List UInt8} {cps : List ℕ}
    {dec : VTermEncodingInstance}
    (hdecode : decode (d.state.runDecoder piece) piece = (cps, piece.length, dec))
    (hcps : ∀ cp ∈ cps, Printable cp)
    (hdec : if piece.headD 0 < 0x80 then mid = inst ∧ dec.enc = .usascii
      else mid = dec ∧ dec.enc = .utf8) :
    Reads o (d.call (.text piece)) mid
      (run Sheet.press p (cps.map fun cp => .char (typedCell o.blank cp))) := by
  have hset := follows_setEncodingAt h.follows (d.state.textSlot (piece.headD 0)) dec
  have hpoints := (hset.putPoints hcps).updatecursor d.state.pos
    (show false = true → _ by simp)
  have ht : d.state.stateCall (.text piece) =
      ((d.state.setEncodingAt (d.state.textSlot (piece.headD 0)) dec).putPoints cps).updatecursor
        d.state.pos false := by
    change (d.state.onText piece).1 = _
    unfold VTermState.onText
    unfold VTermState.runDecoder at hdecode
    dsimp only
    rw [hdecode]
  have hdecoding : (d.state.stateCall (.text piece)).decoding =
      (d.state.setEncodingAt (d.state.textSlot (piece.headD 0)) dec).decoding := by
    rw [ht, decoding_updatecursor, decoding_putPoints]
  rw [← ht] at hpoints
  have hslot : d.state.textSlot (piece.headD 0) =
      if piece.headD 0 < 0x80 then .set 0 else .utf8 := by
    unfold VTermState.textSlot
    rw [h.gl, if_pos h.utf8]
  rw [hslot] at hdecoding
  by_cases hlow : piece.headD 0 < 0x80
  · rw [if_pos hlow] at hdec hdecoding
    obtain ⟨rfl, hascii⟩ := hdec
    simp only [VTermState.decoding, VTermState.setEncodingAt, Prod.mk.injEq] at hdecoding
    obtain ⟨hencoding, hdecoder, hutf8, hgl⟩ := hdecoding
    refine h.call rfl hpoints (hutf8.trans h.utf8) (hdecoder.trans h.decoder) h.enc
      (hgl.trans h.gl) ?_
    rw [hencoding, Function.update_self]
    exact hascii
  · rw [if_neg hlow] at hdec hdecoding
    obtain ⟨rfl, henc⟩ := hdec
    simp only [VTermState.decoding, VTermState.setEncodingAt, Prod.mk.injEq] at hdecoding
    obtain ⟨hencoding, hdecoder, hutf8, hgl⟩ := hdecoding
    refine h.call rfl hpoints (hutf8.trans h.utf8) hdecoder henc (hgl.trans h.gl) ?_
    rw [hencoding]
    exact h.ascii

/-- A control of plain text. -/
theorem control (h : Reads o d inst p) {byte : UInt8} {k : Key ℕ}
    (hkey : controlKey byte = some k) (hfeeds : p.Feeds (k.map (typedCell o.blank))) :
    Reads o (d.call (.control byte)) inst (p.press (k.map (typedCell o.blank))) := by
  have hdecoding := decoding_onControl d.state hkey
  simp only [VTermState.decoding, Prod.mk.injEq] at hdecoding
  obtain ⟨hencoding, hdecoder, hutf8, hgl⟩ := hdecoding
  refine h.call rfl (h.follows.onControl hkey hfeeds) (hutf8.trans h.utf8)
    (hdecoder.trans h.decoder) h.enc (hgl.trans h.gl) ?_
  rw [show (d.state.stateCall (.control byte)).encoding = d.state.encoding from hencoding]
  exact h.ascii

theorem pushLoop_control (d : Display) {byte : UInt8} {k : Key ℕ} (hkey : controlKey byte = some k)
    (rest : List UInt8) : pushLoop parserCallbacks (byte :: rest) 0 ⟨.normal, []⟩ d none =
      pushLoop parserCallbacks rest 0 ⟨.normal, []⟩ (d.call (.control byte)) none := by
  unfold controlKey at hkey
  split_ifs at hkey with hret hfeed hback
  · subst hret
    rfl
  · subst hfeed
    rfl
  · subst hback
    rfl

theorem run_keys (p : Sheet VTermScreenCell) (cps : List ℕ) (after : List (Key ℕ)) :
    run Sheet.press p ((cps.map Key.char ++ after).map (Key.map (typedCell o.blank))) =
      run Sheet.press (run Sheet.press p (cps.map fun cp => .char (typedCell o.blank cp)))
        (after.map (Key.map (typedCell o.blank))) := by
  rw [List.map_append, run_append, List.map_map]
  rfl

/-- A run of text that its decoder takes up to `more`. -/
theorem takes (h : Reads o d inst p) {piece more : List UInt8} {cps : List ℕ}
    {dec : VTermEncodingInstance} (hpiece : piece ≠ [])
    (htext : 0x20 ≤ piece.headD 0 ∧ piece.headD 0 ≠ 0x7f)
    (hdecode : decode (d.state.runDecoder piece) (piece ++ more) = (cps, piece.length, dec))
    (hcps : ∀ cp ∈ cps, Printable cp)
    (hdec : if piece.headD 0 < 0x80 then mid = inst ∧ dec.enc = .usascii
      else mid = dec ∧ dec.enc = .utf8) :
    pushLoop parserCallbacks (piece ++ more) 0 ⟨.normal, []⟩ d none =
        pushLoop parserCallbacks more 0 ⟨.normal, []⟩ (d.call (.text piece)) none ∧
      Reads o (d.call (.text piece)) mid
        (run Sheet.press p (cps.map fun cp => .char (typedCell o.blank cp))) := by
  have hown : (decode (d.state.runDecoder piece) (piece ++ more)).2.1 = piece.length := by
    rw [hdecode]
  refine ⟨pushLoop_piece hpiece ⟨htext.1, htext.2, fun _ => h.utf8⟩ hown, ?_⟩
  rw [decode_append_of_eq hown] at hdecode
  exact h.text hdecode hcps hdec

theorem ne_nil_of_decode {dec : VTermEncodingInstance} {byte : UInt8}
    {found : List ℕ × VTermEncodingInstance} (hbyte : decodeByte dec byte = some found)
    {bytes piece more : List UInt8} (hbytes : byte :: bytes = piece ++ more)
    {cps : List ℕ} {dec' : VTermEncodingInstance}
    (hdecode : decode dec (byte :: bytes) = (cps, piece.length, dec')) :
    piece ≠ [] ∧ piece.headD 0 = byte ∧ more.length ≤ bytes.length := by
  cases piece with
  | nil =>
    rw [decode_cons_some hbyte] at hdecode
    simp at hdecode
  | cons first piece =>
    simp only [List.cons_append, List.cons.injEq] at hbytes
    obtain ⟨rfl, rfl⟩ := hbytes
    exact ⟨List.cons_ne_nil _ _, rfl, by simp⟩

/-- The run that begins with a character. -/
theorem run_taken (h : Reads o d inst p) {next last : VTermEncodingInstance}
    {byte : UInt8} {bytes : List UInt8} {cps : List ℕ} {ks : List (Key ℕ)}
    (hready : byte < 0x80 → Ready inst) (hbyte : decodeByte inst byte = some (cps, next))
    (hcps : ∀ cp ∈ cps, Printable cp) (htyped : Typed inst (byte :: bytes) ks last) :
    ∃ (more : List UInt8) (points : List ℕ) (after : List (Key ℕ)) (mid : VTermEncodingInstance)
        (e : Display), more.length ≤ bytes.length ∧ ks = points.map .char ++ after ∧
      Typed mid more after last ∧
      pushLoop parserCallbacks (byte :: bytes) 0 ⟨.normal, []⟩ d none =
        pushLoop parserCallbacks more 0 ⟨.normal, []⟩ e none ∧
      Reads o e mid
        (run Sheet.press p (points.map fun cp => .char (typedCell o.blank cp))) := by
  have hrun : ∀ piece : List UInt8, piece.headD 0 = byte → d.state.runDecoder piece =
      if byte < 0x80 then d.state.encoding 0 else inst := by
    intro piece hhead
    unfold VTermState.runDecoder VTermState.textSlot
    rw [hhead, h.gl, if_pos h.utf8]
    split
    · rfl
    · exact h.decoder
  by_cases hlow : byte < 0x80
  · obtain ⟨hge, rfl, -⟩ := decodeByte_ascii (hready hlow) hlow hbyte
    obtain ⟨piece, more, points, after, hbytes, hdecode, hkeys, hpoints, hmore⟩ :=
      htyped.usascii_run (hready hlow) h.ascii
    have hdel : byte ≠ 0x7f := by
      rintro rfl
      exact absurd (hcps _ List.mem_cons_self).2 (by decide)
    have hfirst : decodeByte (d.state.encoding 0) byte =
        some ([byte.toNat], d.state.encoding 0) := by
      have hlt : byte.toNat < 0x80 := hlow
      unfold decodeByte
      rw [h.ascii]
      simp [decodeUsasciiByte, hge, hlt]
    obtain ⟨hpiece, hhead, hlength⟩ := ne_nil_of_decode hfirst hbytes hdecode
    have hdec : if piece.headD 0 < 0x80 then inst = inst ∧ (d.state.encoding 0).enc = .usascii
        else inst = d.state.encoding 0 ∧ (d.state.encoding 0).enc = .utf8 := by
      rw [hhead, if_pos hlow]
      exact ⟨rfl, h.ascii⟩
    have htaken := h.takes hpiece (by rw [hhead]; exact ⟨hge, hdel⟩)
      (by rw [hrun piece hhead, if_pos hlow, ← hbytes]; exact hdecode) hpoints hdec
    rw [hbytes]
    exact ⟨more, points, after, inst, _, hlength, hkeys, hmore, htaken⟩
  · obtain ⟨piece, more, points, after, mid, hbytes, hdecode, hkeys, hpoints, hmore⟩ :=
      htyped.utf8_run h.enc
    obtain ⟨hpiece, hhead, hlength⟩ := ne_nil_of_decode hbyte hbytes hdecode
    have hge : 0x80 ≤ byte := UInt8.not_lt.mp hlow
    have henc : mid.enc = .utf8 := by
      have hkept := decode_enc inst (byte :: bytes)
      rw [hdecode] at hkept
      exact hkept.trans h.enc
    have htext : 0x20 ≤ piece.headD 0 ∧ piece.headD 0 ≠ 0x7f := by
      rw [hhead]
      refine ⟨UInt8.le_trans (by decide) hge, ?_⟩
      rintro rfl
      exact absurd hge (by decide)
    have hdec : if piece.headD 0 < 0x80 then mid = inst ∧ mid.enc = .usascii
        else mid = mid ∧ mid.enc = .utf8 := by
      rw [hhead, if_neg hlow]
      exact ⟨rfl, henc⟩
    rw [hbytes] at hdecode
    have htaken := h.takes hpiece htext (by rw [hrun piece hhead, if_neg hlow]; exact hdecode) hpoints
      hdec
    rw [hbytes]
    exact ⟨more, points, after, mid, _, hlength, hkeys, hmore, htaken⟩

/-- The parser, over bytes of plain text from where a sequence may be open. -/
theorem pushLoop_typed {last : VTermEncodingInstance} {bytes : List UInt8} {ks : List (Key ℕ)}
    (h : Reads o d inst p) (htyped : Typed inst bytes ks last)
    (hfeeds : AllSteps Sheet.press Sheet.Feeds p (ks.map (Key.map (typedCell o.blank)))) :
    ∃ e, pushLoop parserCallbacks bytes 0 ⟨.normal, []⟩ d none = (⟨.normal, []⟩, e) ∧
      Reads o e last (run Sheet.press p (ks.map (Key.map (typedCell o.blank)))) := by
  obtain ⟨n, hn⟩ : ∃ n, bytes.length ≤ n := ⟨_, Nat.le_refl _⟩
  induction n generalizing d inst p bytes ks with
  | zero =>
    cases htyped with
    | nil => exact ⟨d, rfl, h⟩
    | text => simp at hn
    | control => simp at hn
  | succ n ih =>
    cases htyped with
    | nil => exact ⟨d, rfl, h⟩
    | control hready hkey hrest =>
      rw [List.map_cons, allSteps_cons] at hfeeds
      rw [pushLoop_control d hkey]
      have hnext := ih (h.control hkey hfeeds.1) hrest hfeeds.2 (by simp at hn; omega)
      exact hnext
    | text hready hbyte hcps hrest =>
      obtain ⟨more, points, after, mid, e, hlength, hkeys, hmore, hpush, hreads⟩ :=
        h.run_taken hready hbyte hcps (.text hready hbyte hcps hrest)
      rw [hkeys, List.map_append, List.map_map, allSteps_append] at hfeeds
      rw [hkeys, run_keys, hpush]
      exact ih hreads hmore hfeeds.2 (by simp at hn; omega)

/-- A flush reports what has changed, and changes nothing. -/
theorem flush (h : Reads o d inst p) :
    Reads o { d with screen := d.screen.flushDamage } inst p := by
  obtain ⟨hidle, ⟨hheads, hshown, hrows⟩, hutf8, hdecoder, henc, hgl, hascii⟩ := h
  have hdamage := VTermScreen.damageOnly_flushDamage d.screen
  have hgrid := hdamage.grid
  rw [hidle] at hshown hrows
  obtain ⟨hsame, hheight, hwide, hwidth, hplaced, hpen, hcells, hbelow, hpushes⟩ := hshown
  have hsize : d.screen.flushDamage.rows = d.screen.rows ∧
      d.screen.flushDamage.cols = d.screen.cols :=
    ⟨congrArg TermGrid.rows hgrid, congrArg TermGrid.cols hgrid⟩
  refine ⟨hidle, ⟨hheads, ?_, ?_⟩, hutf8, hdecoder, henc, hgl, hascii⟩
  · rw [hidle]
    refine ⟨?_, ?_, ?_, ?_, hplaced, ?_, ?_, ?_, ?_⟩
    all_goals dsimp only [run, List.foldl_nil] at *
    · exact hsize.1.trans hsame
    · rw [hsize.1]
      exact hheight
    · rw [hsize.2]
      exact hwide
    · rw [hsize.2]
      exact hwidth
    · rw [hgrid]
      exact hpen
    · intro row col hin
      rw [VTermScreen.inside_of_size hdamage.size] at hin
      rw [hsize.1, ← VTermScreen.grid_getCell, hgrid]
      exact hcells row col hin
    · rw [hsize.1]
      exact hbelow
    · rw [hsize.1]
      exact hdamage.scrollPushes.trans hpushes
  · rw [hidle]
    exact hsize.1.trans hrows

end Reads

def VTermEvent.bytes : VTermEvent → List UInt8
  | .recv bytes => bytes
  | _ => []

def VTermEvent.Resizes : VTermEvent → Prop
  | .resize _ _ => True
  | _ => False

instance : DecidablePred VTermEvent.Resizes
  | .resize _ _ => inferInstanceAs (Decidable True)
  | .recv _ | .flush => inferInstanceAs (Decidable False)

theorem Reads.vtermSteps {o : Origin} {t : VTerm}
    {inst last : VTermEncodingInstance} {p : Sheet VTermScreenCell}
    (h : Reads o t.display inst p) (hparser : t.parser = ⟨.normal, []⟩)
    {es : List VTermEvent} (hes : ∀ e ∈ es, ¬ e.Resizes) {ks : List (Key ℕ)}
    (htyped : Typed inst (es.flatMap VTermEvent.bytes) ks last)
    (hfeeds : AllSteps Sheet.press Sheet.Feeds p (ks.map (Key.map (typedCell o.blank)))) :
    Reads o (run vtermStep t es).display last
      (run Sheet.press p (ks.map (Key.map (typedCell o.blank)))) := by
  induction es generalizing t inst p ks with
  | nil =>
    cases htyped
    exact h
  | cons e es ih =>
    have hrest : ∀ e ∈ es, ¬ e.Resizes := fun f hf => hes f (List.mem_cons_of_mem e hf)
    cases e with
    | resize c r => exact absurd trivial (hes _ List.mem_cons_self)
    | flush =>
      have hnext := ih (t := webvtermFlushDamage t) h.flush hparser hrest htyped hfeeds
      exact hnext
    | recv bytes =>
      rw [List.flatMap_cons] at htyped
      obtain ⟨before, after, mid, rfl, hfirst, hlast⟩ := htyped.cut
      change Typed inst bytes before mid at hfirst
      rw [List.map_append, allSteps_append] at hfeeds
      obtain ⟨d, hpush, hreads⟩ := h.pushLoop_typed hfirst hfeeds.1
      have hrecv : webvtermRecv t bytes = ⟨⟨.normal, []⟩, d⟩ := by
        unfold webvtermRecv pushBytes
        rw [hparser]
        dsimp only
        rw [if_pos rfl, hpush]
      have hnext := ih (t := webvtermRecv t bytes) (by rw [hrecv]; exact hreads) (by rw [hrecv])
        hrest hlast hfeeds.2
      rw [List.map_append, run_append]
      exact hnext

/-- The terminal as a reset leaves it, but for the cursor and what is on the screen. -/
structure VTerm.Plain (t : VTerm) : Prop where
  parser : t.parser = ⟨.normal, []⟩
  idle : t.display.state.calls = []
  size : t.display.screen.size = (t.display.state.rows, t.display.state.cols)
  rows : 2 ≤ t.display.state.rows
  cols : 2 ≤ t.display.state.cols
  row : 0 ≤ t.display.state.pos.row ∧ t.display.state.pos.row < t.display.state.rows
  col : 0 ≤ t.display.state.pos.col ∧ t.display.state.pos.col < t.display.state.cols
  phantom : t.display.state.atPhantom = true →
    t.display.state.pos.col = t.display.state.cols - 1
  autowrap : t.display.state.mode.autowrap = true
  insert : t.display.state.mode.insert = false
  newline : t.display.state.mode.newline = false
  region : t.display.state.scrollregion = t.display.state.screenRect
  utf8 : t.display.state.isUtf8 = true
  ready : Ready t.display.state.encodingUtf8
  gl : t.display.state.glSet = 0
  ascii : (t.display.state.encoding 0).enc = .usascii

def VTerm.origin (t : VTerm) : Origin :=
  { blank := t.display.screen.grid.blankCell
    pushed := t.display.screen.scrollPushes
    height := t.display.state.rows }

/-- The sheet that begins with the screen, and the cursor as its head. -/
def VTerm.sheet (t : VTerm) : Sheet VTermScreenCell :=
  { width := t.display.state.cols
    line := t.display.state.pos.row
    col := t.display.state.pos.col
    full := t.display.state.atPhantom
    ink := fun row col =>
      if row < t.display.state.rows then t.display.screen.getCell row col
      else t.display.screen.grid.blankCell }

def VTerm.keys (t : VTerm) (ks : List (Key ℕ)) : List (Key VTermScreenCell) :=
  ks.map (Key.map (typedCell t.display.screen.grid.blankCell))

theorem VTerm.Plain.placed {t : VTerm} (h : t.Plain) : t.sheet.Placed :=
  ⟨h.row.1, h.col, h.phantom⟩

theorem VTerm.Plain.reads {t : VTerm} (h : t.Plain) :
    Reads t.origin t.display t.display.state.encodingUtf8 t.sheet := by
  obtain ⟨hrows, hcols⟩ := Prod.mk.inj h.size
  have hrow := h.row
  have htop : t.sheet.top t.display.state.rows = 0 := by
    unfold Sheet.top VTerm.sheet
    dsimp only
    omega
  refine ⟨h.idle, ⟨⟨h.autowrap, h.insert, h.newline, h.region, rfl, ?_, rfl⟩, ?_, ?_⟩, h.utf8, rfl,
    h.ready.1, h.gl, h.ascii⟩
  · rw [htop, Int.sub_zero]
    rfl
  · rw [h.idle]
    dsimp only [run, List.foldl_nil]
    refine ⟨hrows, ?_, ?_, hcols.symm, h.placed, rfl, ?_, ?_, ?_⟩
    · rw [hrows]
      exact h.rows
    · rw [hcols]
      exact h.cols
    · intro row col hin
      rw [hrows, htop, Int.zero_add]
      exact (if_pos (hrows ▸ hin.2.1)).symm
    · intro line col hline
      rw [hrows, htop] at hline
      exact if_neg (by omega)
    · rw [hrows]
      unfold Sheet.above
      rw [htop]
      exact (List.append_nil _).symm
  · rw [h.idle]
    exact hrows

/-- Events in which the bytes of these keys arrive, in any pieces. -/
def Arrive (ks : List (Key ℕ)) (es : List VTermEvent) : Prop :=
  es.flatMap VTermEvent.bytes = ks.flatMap keyBytes ∧ ∀ e ∈ es, ¬ e.Resizes

instance (ks : List (Key ℕ)) (es : List VTermEvent) : Decidable (Arrive ks es) :=
  inferInstanceAs (Decidable (_ ∧ _))

theorem VTerm.Plain.arrive {t : VTerm} (h : t.Plain) {ks : List (Key ℕ)}
    (hks : ∀ cp, .char cp ∈ ks → Printable cp)
    (hfeeds : AllSteps Sheet.press Sheet.Feeds t.sheet (t.keys ks)) {es : List VTermEvent}
    (hes : Arrive ks es) :
    ∃ last, Reads t.origin (run vtermStep t es).display last
      (run Sheet.press t.sheet (t.keys ks)) := by
  obtain ⟨last, htyped, -⟩ := Typed.keys h.ready hks
  rw [← hes.1] at htyped
  exact ⟨last, h.reads.vtermSteps h.parser hes.2 htyped hfeeds⟩

theorem plain_webvtermInit {cols rows : ℤ} (hcols : 2 ≤ cols) (hrows : 2 ≤ rows)
    (lowMemory : ℤ → ScreenCell) (stack : List ℕ) :
    (webvtermInit cols rows lowMemory stack).Plain where
  parser := rfl
  idle := rfl
  size := (agrees_webvtermInit cols rows lowMemory stack).size
  rows := hrows
  cols := hcols
  row := ⟨Int.le_refl 0, Int.lt_of_lt_of_le (show (0 : ℤ) < 2 by decide) hrows⟩
  col := ⟨Int.le_refl 0, Int.lt_of_lt_of_le (show (0 : ℤ) < 2 by decide) hcols⟩
  phantom := fun hon => by contradiction
  autowrap := rfl
  insert := rfl
  newline := rfl
  region := rfl
  utf8 := rfl
  ready := ⟨rfl, rfl⟩
  gl := rfl
  ascii := rfl

end Jterm.Vterm
