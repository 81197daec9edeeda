import Jterm.Vterm.Reads

/-!
What the terminal shows of bytes that arrive in several calls of webvterm_recv. A run of text that
is open at the end of a call goes on in the next one, with the decoder its first byte there selects
and with combining characters where the cursor is behind the last glyph.
-/
namespace Jterm.Vterm

open Runs

namespace VTermState

theorem runDecoder_append (s : VTermState) {bytes : List UInt8} (h : bytes ≠ [])
    (more : List UInt8) : s.runDecoder (bytes ++ more) = s.runDecoder bytes := by
  unfold runDecoder
  rw [headD_append h]

/-- on_text does not look behind the byte its decoder stops at. -/
theorem onText_append_of_decode (s : VTermState) {bytes : List UInt8} (h : bytes ≠ [])
    {more : List UInt8}
    (hdecode : decode (s.runDecoder bytes) (bytes ++ more) = decode (s.runDecoder bytes) bytes) :
    s.onText (bytes ++ more) = s.onText bytes := by
  change decode (s.encodingAt (s.textSlot (bytes.headD 0))) (bytes ++ more) =
    decode (s.encodingAt (s.textSlot (bytes.headD 0))) bytes at hdecode
  unfold onText
  dsimp only
  rw [headD_append h, hdecode]

end VTermState

theorem text_append_of_decode (d : Display) {bytes : List UInt8} (h : bytes ≠ [])
    {more : List UInt8} (hdecode : decode (d.state.runDecoder bytes) (bytes ++ more) =
      decode (d.state.runDecoder bytes) bytes) :
    parserCallbacks.text d (bytes ++ more) = parserCallbacks.text d bytes := by
  have hcall := VTermState.onText_append_of_decode { d.state with calls := [] } h hdecode
  have heaten := congrArg Prod.snd (d.state.onText_append_of_decode h hdecode)
  change (Display.apply d fun s => (s.onText (bytes ++ more)).1, (d.state.onText (bytes ++ more)).2) =
    (Display.apply d fun s => (s.onText bytes).1, (d.state.onText bytes).2)
  rw [heaten]
  unfold Display.apply
  dsimp only
  rw [hcall]

theorem stopsInText_parserCallbacks : StopsInText parserCallbacks where
  stops {d run} more hstops := by
    have hne : run ≠ [] := by
      rintro rfl
      exact Nat.not_lt_zero _ hstops
    exact text_append_of_decode d hne (decode_append_of_lt more hstops)
  goes {d run} more hall := by
    cases run with
    | nil => exact Nat.zero_le _
    | cons c rest =>
      change (decode (d.state.runDecoder (c :: rest)) (c :: rest)).2.1 = (c :: rest).length at hall
      change (c :: rest).length ≤ (decode (d.state.runDecoder (c :: rest)) (c :: rest ++ more)).2.1
      rw [decode_append more hall]
      exact Nat.le_add_right _ _
  eaten d run := decode_eaten_le _ run

/-- Titles are none of the things that are shown. -/
theorem osc_call (d : Display) (str : List UInt8) :
    d.call (.osc str) = { d with state := { d.state with calls := [] } } := by
  change d.apply (fun s => s.onOsc str) = _
  unfold Display.apply VTermState.onOsc
  split <;> rfl

theorem deafToStrings_parserCallbacks : DeafToStrings parserCallbacks where
  osc d str str' := (osc_call d str).trans (osc_call d str').symm
  dcs _ _ _ := rfl

/-! A run that goes on. -/

/-- The decoder of an open run, behind the run. -/
def Display.openDecoder (d : Display) (run : List UInt8) : VTermEncodingInstance :=
  (decode (d.state.runDecoder run) run).2.2

/-- A byte that is text between two sequences. -/
def isTextByte (utf8 : Bool) (c : UInt8) : Prop :=
  0x20 ≤ c ∧ c ≠ 0x7f ∧ (0x80 ≤ c ∧ c < 0xa0 → utf8 = true)

instance (utf8 : Bool) (c : UInt8) : Decidable (isTextByte utf8 c) :=
  inferInstanceAs (Decidable (_ ∧ _))

/-- The bytes `more` go on with the run that `d` has begun as they would on their own. They may do so
in several runs, as each stops where its decoder does. -/
inductive RunsOn (d : Display) : List UInt8 → List UInt8 → Prop
  | stops {run more : List UInt8} (h : (decode (d.openDecoder run) more).2.1 = 0) : RunsOn d run more
  | next {run piece more : List UInt8} (t : VTermState) (ht : t = (d.call (.text run)).state)
      (hpiece : piece ≠ []) (htext : isTextByte t.isUtf8 (piece.headD 0))
      (hown : (decode (t.runDecoder piece) (piece ++ more)).2.1 = piece.length)
      (hopen : (decode (d.openDecoder run) piece).2.1 = piece.length)
      (hpoints : (decode (d.openDecoder run) piece).1 = (decode (t.runDecoder piece) piece).1)
      (hjoin : (decode (d.state.runDecoder run) run).1 = [] ∨
        (unicodeIsCombining ((decode (t.runDecoder piece) piece).1.headD 0) = true →
          t.Combines (decode (t.runDecoder piece) piece).1))
      (hleft : more = [] ∨ t.textSlot (piece.headD 0) = d.state.textSlot (run.headD 0) ∨
        (¬ (d.openDecoder run).Carries ∧ ¬ (d.openDecoder (run ++ piece)).Carries ∧
          ¬ (t.runDecoder piece).Carries ∧
            ¬ (decode (t.runDecoder piece) piece).2.2.Carries))
      (hmore : RunsOn d (run ++ piece) more) : RunsOn d run (piece ++ more)

/-- The same is shown; the text memory does not count. -/
def Display.Shown (d e : Display) : Prop :=
  VTermState.Similar (fun _ _ => True) VTermState.AnyDecoders d.screen e.screen
    { d.state with calls := [] } { e.state with calls := [] }

theorem Display.Shown.trans {d e f : Display} (h : d.Shown e) (h' : e.Shown f) : d.Shown f :=
  VTermState.Similar.trans h h' trivial

theorem Display.Alike.shown {d e : Display} (h : d.Alike e) : d.Shown e :=
  { h with glyph := trivial, decoders := trivial }

theorem pushByte_text {d : Display} {c : UInt8} (h : isTextByte d.state.isUtf8 c)
    (rest : List UInt8) : pushByte parserCallbacks ⟨.normal, []⟩ d none c rest = none := by
  obtain ⟨hlow, hdel, hc1⟩ := h
  have hcontrol : pushControl parserCallbacks ⟨.normal, []⟩ d none c = none := by
    unfold pushControl
    have hne : ∀ b : UInt8, b < 0x20 → c ≠ b := by
      rintro b hb rfl
      exact absurd hlow (UInt8.not_le.mpr hb)
    rw [if_neg (not_or.mpr ⟨hne _ (by decide), hdel⟩),
      if_neg (not_or.mpr ⟨hne _ (by decide), hne _ (by decide)⟩), if_neg (hne _ (by decide)),
      if_neg fun h => hne _ (by decide) h.1, if_neg (UInt8.not_lt.mpr hlow)]
  unfold pushByte
  rw [hcontrol]
  dsimp only
  rw [if_neg (by decide), if_neg]
  rintro ⟨h80, ha0, hutf8⟩
  have htrue : d.state.isUtf8 = true := hc1 ⟨h80, ha0⟩
  have hfalse : d.state.isUtf8 = false := hutf8
  rw [htrue] at hfalse
  contradiction

/-- A run over more bytes, the first of which it takes. -/
theorem pushRun_append {σ : Type*} {cb : ParserCallbacks σ} (hcb : StopsInText cb) {s : σ}
    {run piece : List UInt8} (hall : (cb.text s (run ++ piece)).2 = (run ++ piece).length)
    (more : List UInt8) : pushRun cb s run (piece ++ more) = pushRun cb s (run ++ piece) more := by
  have hgoes := hcb.goes more hall
  rw [List.length_append] at hgoes
  have hlength : (cb.text s (run ++ piece ++ more)).2 - run.length =
      piece.length + ((cb.text s (run ++ piece ++ more)).2 - (run ++ piece).length) := by
    rw [List.length_append]
    omega
  unfold pushRun
  rw [← List.append_assoc, hlength, pushLoop_skip]

theorem Display.call_text (d : Display) (bytes : List UInt8) :
    d.call (.text bytes) =
      { state := { (VTermState.onText { d.state with calls := [] } bytes).1 with calls := [] }
        screen := run VTermScreen.exec d.screen
          (VTermState.onText { d.state with calls := [] } bytes).1.calls } := rfl

/-! The decoders behind a run. -/

theorem VTermState.onText_decoders {s : VTermState} (h : s.savedGlyph.Allocated)
    (bytes : List UInt8) :
    (s.onText bytes).1.decoders =
      s.decoders.set (s.textSlot (bytes.headD 0)) (decode (s.runDecoder bytes) bytes).2.2 := by
  have hset : ∀ slot inst, (s.setEncodingAt slot inst).decoders = s.decoders.set slot inst := by
    intro slot inst
    have hover := setEncodingAt_onto s s.savedGlyph s.decoders [] slot inst
    rw [onto_self] at hover
    rw [hover, onto_decoders]
  have hglyph : ∀ slot inst, (s.setEncodingAt slot inst).savedGlyph.Allocated := by
    intro slot inst
    cases slot with
    | set i => exact h
    | utf8 => exact h
  unfold runDecoder
  rw [← hset]
  generalize hinst : decode (s.encodingAt (s.textSlot (bytes.headD 0))) bytes = decoded
  have hself : Similar SavedGlyph.Alike
      (fun e _ => e = (s.setEncodingAt (s.textSlot (bytes.headD 0)) decoded.2.2).decoders)
      (.new 0 0 fun _ => .blank .zero) (.new 0 0 fun _ => .blank .zero)
      (s.setEncodingAt (s.textSlot (bytes.headD 0)) decoded.2.2)
      (s.setEncodingAt (s.textSlot (bytes.headD 0)) decoded.2.2) :=
    ⟨rfl, ⟨hglyph _ _, hglyph _ _, rfl, rfl, rfl⟩, rfl, rfl⟩
  have hcursor := (hself.putPoints decoded.1).map (f := fun t => t.updatecursor s.pos false)
    fun b g e cs => updatecursor_onto b g e cs s.pos false
  unfold onText
  dsimp only
  rw [hinst]
  exact hcursor.decoders

theorem VTermState.decoders_calls (s : VTermState) (calls : List ScreenCall) :
    { s with calls := calls }.decoders = s.decoders := rfl

theorem VTermState.calls_nil_eq {s : VTermState} (h : s.calls = []) :
    { s with calls := [] } = s := by
  cases s
  cases h
  rfl

theorem Display.call_calls (d : Display) (c : ParserCall) : (d.call c).state.calls = [] := rfl

theorem Display.call_decoders {d : Display} (h : d.state.savedGlyph.Allocated)
    (bytes : List UInt8) :
    (d.call (.text bytes)).state.decoders =
      d.state.decoders.set (d.state.textSlot (bytes.headD 0))
        (decode (d.state.runDecoder bytes) bytes).2.2 := by
  rw [Display.call_text]
  dsimp only
  rw [VTermState.decoders_calls]
  exact VTermState.onText_decoders (s := { d.state with calls := [] }) h bytes

theorem VTermEncodingInstance.alike_of_not_carries {inst inst' : VTermEncodingInstance}
    (henc : inst'.enc = inst.enc) (h : ¬ inst.Carries) (h' : ¬ inst'.Carries) :
    inst.Alike inst' := by
  refine ⟨henc, fun hutf8 => ?_⟩
  have hnone : inst.data.bytesRemaining = 0 := not_not.mp (not_and.mp h hutf8)
  have hnone' : inst'.data.bytesRemaining = 0 := not_not.mp (not_and.mp h' (henc.trans hutf8))
  exact ⟨hnone'.trans hnone.symm, fun hne => absurd hnone hne⟩

theorem openDecoder_append {d : Display} {run : List UInt8} (hrun : run ≠ [])
    (htaken : (decode (d.state.runDecoder run) run).2.1 = run.length) (piece : List UInt8) :
    d.openDecoder (run ++ piece) = (decode (d.openDecoder run) piece).2.2 := by
  unfold Display.openDecoder
  rw [VTermState.runDecoder_append _ hrun, decode_append piece htaken]

theorem Display.Alike.glyph_allocated {d : Display} (hd : d.Alike d) :
    d.state.savedGlyph.Allocated := hd.glyph.allocated

theorem Display.Alike.runDecoder_self {d : Display} (hd : d.Alike d) (run : List UInt8) :
    (d.state.runDecoder run).Alike (d.state.runDecoder run) := by
  unfold VTermState.runDecoder
  rw [VTermState.encodingAt_eq]
  exact hd.decoders _

/-- After another piece the decoders are left alike, whether the piece was a run of its own. -/
theorem decoders_next {d : Display} (hd : d.Alike d) {run piece : List UInt8} (hrun : run ≠ [])
    (htaken : (decode (d.state.runDecoder run) run).2.1 = run.length) {t : VTermState}
    (ht : t = (d.call (.text run)).state)
    (hleft : t.textSlot (piece.headD 0) = d.state.textSlot (run.headD 0) ∨
      (¬ (d.openDecoder run).Carries ∧ ¬ (d.openDecoder (run ++ piece)).Carries ∧
        ¬ (t.runDecoder piece).Carries ∧ ¬ (decode (t.runDecoder piece) piece).2.2.Carries)) :
    (d.call (.text (run ++ piece))).state.decoders.Alike
      ((d.call (.text run)).call (.text piece)).state.decoders := by
  have halloc := hd.glyph_allocated
  have hkept : (d.call (.text run)).Alike (d.call (.text run)) := hd.call (.text run)
  have htdecoders : t.decoders =
      d.state.decoders.set (d.state.textSlot (run.headD 0)) (d.openDecoder run) := by
    rw [ht]
    exact Display.call_decoders halloc run
  have hself : ∀ slot, (d.state.decoders.get slot).Alike (d.state.decoders.get slot) := hd.decoders
  have hrunself := hd.runDecoder_self run
  have hbothself : (d.openDecoder (run ++ piece)).Alike (d.openDecoder (run ++ piece)) := by
    unfold Display.openDecoder
    rw [VTermState.runDecoder_append _ hrun]
    exact (decode_alike hrunself _).2.2.2
  have hown : t.runDecoder piece = t.decoders.get (t.textSlot (piece.headD 0)) :=
    t.encodingAt_eq _
  have hnext : ((d.call (.text run)).call (.text piece)).state.decoders =
      t.decoders.set (t.textSlot (piece.headD 0)) (decode (t.runDecoder piece) piece).2.2 := by
    rw [ht]
    exact Display.call_decoders hkept.glyph_allocated piece
  have hwhole : (d.call (.text (run ++ piece))).state.decoders =
      d.state.decoders.set (d.state.textSlot (run.headD 0)) (d.openDecoder (run ++ piece)) := by
    have hdecoders := Display.call_decoders halloc (run ++ piece)
    rw [VTermState.headD_append hrun] at hdecoders
    exact hdecoders
  intro slot
  rw [hwhole, hnext, Decoders.get_set, Decoders.get_set]
  rw [htdecoders, Decoders.get_set] at hown
  rw [htdecoders, Decoders.get_set]
  by_cases hsame : t.textSlot (piece.headD 0) = d.state.textSlot (run.headD 0)
  · rw [if_pos hsame] at hown
    rw [hsame, hown, ← openDecoder_append hrun htaken]
    split
    · exact hbothself
    · exact hself slot
  · obtain ⟨hfront, hback, hownfront, hownback⟩ := hleft.resolve_left hsame
    rw [if_neg hsame] at hown
    by_cases hother : slot = t.textSlot (piece.headD 0)
    · rw [if_pos hother, if_neg fun h => hsame (hother.symm.trans h), hother, ← hown]
      exact VTermEncodingInstance.alike_of_not_carries (decode_enc _ _) hownfront hownback
    · rw [if_neg hother]
      split
      · apply VTermEncodingInstance.alike_of_not_carries ?_ hback hfront
        rw [openDecoder_append hrun htaken, decode_enc]
      · exact hself slot

/-- What is shown behind a run that is open, against a display that has had it as a run of its own. -/
def Display.Follows (whole cut : Display) (more : List UInt8) : Prop :=
  VTermState.Similar SavedGlyph.Alike (fun e e' => more = [] ∨ e.Alike e') whole.screen cut.screen
    { whole.state with calls := [] } { cut.state with calls := [] }

theorem Display.Follows.shown {d e : Display} {more : List UInt8} (h : d.Follows e more) :
    d.Shown e := { h with glyph := trivial, decoders := trivial }

theorem Display.Follows.alike {d e : Display} {more : List UInt8} (h : d.Follows e more)
    (hmore : more ≠ []) : d.Alike e := { h with decoders := h.decoders.resolve_left hmore }

/-- The parser and what is shown. -/
def SameShown (whole cut : Parser × Display) : Prop :=
  cut.1 = whole.1 ∧ whole.2.Shown cut.2

theorem pushLoop_follows {d e : Display} {more : List UInt8} (h : d.Follows e more) :
    SameShown (pushLoop parserCallbacks more 0 ⟨.normal, []⟩ d none)
      (pushLoop parserCallbacks more 0 ⟨.normal, []⟩ e none) := by
  cases more with
  | nil => exact ⟨rfl, h.shown⟩
  | cons c rest =>
    obtain ⟨hparser, halike⟩ := pushLoop_related parserCallbacks_related
      (h.alike (List.cons_ne_nil c rest)) (c :: rest) 0 ⟨.normal, []⟩ none
    exact ⟨hparser, halike.shown⟩

/-- The next piece of the run, as a run of its own and as part of it. -/
theorem follows_next {d : Display} (hd : d.Alike d) {run piece more : List UInt8} (hrun : run ≠ [])
    (htaken : (decode (d.state.runDecoder run) run).2.1 = run.length) {t : VTermState}
    (ht : t = (d.call (.text run)).state)
    (hpoints : (decode (d.openDecoder run) piece).1 = (decode (t.runDecoder piece) piece).1)
    (hjoin : (decode (d.state.runDecoder run) run).1 = [] ∨
      (unicodeIsCombining ((decode (t.runDecoder piece) piece).1.headD 0) = true →
        t.Combines (decode (t.runDecoder piece) piece).1))
    (hleft : more = [] ∨ (d.call (.text (run ++ piece))).state.decoders.Alike
      ((d.call (.text run)).call (.text piece)).state.decoders) :
    (d.call (.text (run ++ piece))).Follows ((d.call (.text run)).call (.text piece)) more := by
  have hrunself := hd.runDecoder_self run
  have hboth : (decode (d.state.runDecoder run) (run ++ piece)).1 =
      (decode (d.state.runDecoder run) run).1 ++ (decode (t.runDecoder piece) piece).1 := by
    rw [decode_append piece htaken, ← hpoints]
    rfl
  have hzero := (decode_alike hrunself run).2.2.1
  have hfirst : (d.call (.text run)).screen = Runs.run VTermScreen.exec d.screen
    (VTermState.onText { d.state with calls := [] } run).1.calls :=
      congrArg Display.screen (Display.call_text d run)
  have hwhole := Display.call_text d (run ++ piece)
  have hcut := Display.call_text (d.call (.text run)) piece
  have hidle : { t with calls := [] } = t := by
    rw [ht]
    exact VTermState.calls_nil_eq (d.call_calls (.text run))
  rw [← ht, hidle] at hcut
  rw [Display.call_text] at ht
  have happend := VTermState.onText_append (s := { d.state with calls := [] }) (x := d.screen)
    hd.glyph.allocated hrun ht hzero hboth hjoin
  have hshown := happend.execute.symm
  rw [hfirst] at hcut
  unfold Display.Follows
  rw [hwhole, hcut] at hleft ⊢
  exact { hshown with decoders := hleft }

/-- A run of text that takes all of a piece. -/
theorem pushLoop_piece {d : Display} {piece more : List UInt8} (hpiece : piece ≠ [])
    (htext : isTextByte d.state.isUtf8 (piece.headD 0))
    (hown : (decode (d.state.runDecoder piece) (piece ++ more)).2.1 = piece.length) :
    pushLoop parserCallbacks (piece ++ more) 0 ⟨.normal, []⟩ d none =
      pushLoop parserCallbacks more 0 ⟨.normal, []⟩ (d.call (.text piece)) none := by
  have hdecode := decode_append_of_eq hown
  have htaken : parserCallbacks.text d (piece ++ more) = (d.call (.text piece), piece.length) := by
    rw [text_append_of_decode d hpiece hdecode]
    rw [hdecode] at hown
    exact congrArg (Prod.mk _) hown
  cases piece with
  | nil => contradiction
  | cons c rest =>
    rw [List.cons_append] at htaken ⊢
    have hskip := pushLoop_skip parserCallbacks rest more 0 ⟨.normal, []⟩ (d.call (.text (c :: rest)))
      none
    have heaten : (parserCallbacks.text d (c :: (rest ++ more))).2 ≠ 0 := by
      rw [htaken]
      exact Nat.succ_ne_zero rest.length
    have hbyte : pushByte parserCallbacks ⟨.normal, []⟩ d none c (rest ++ more) = none :=
      pushByte_text htext _
    rw [pushLoop_text hbyte heaten, htaken]
    exact hskip

/-- A run that goes on in the next bytes shows what they show behind it. -/
theorem RunsOn.sameShown {d : Display} (hd : d.Alike d) {run more : List UInt8}
    (h : RunsOn d run more) (hrun : run ≠ [])
    (htaken : (decode (d.state.runDecoder run) run).2.1 = run.length) {e : Display}
    (he : (d.call (.text run)).Follows e more) :
    SameShown (pushRun parserCallbacks d run more)
      (pushLoop parserCallbacks more 0 ⟨.normal, []⟩ e none) := by
  induction h generalizing e with
  | @stops run more hstops =>
    have hnone : (decode (d.state.runDecoder run) (run ++ more)).2.1 = run.length := by
      rw [decode_append more htaken]
      change run.length + (decode (d.openDecoder run) more).2.1 = run.length
      rw [hstops, Nat.add_zero]
    have htext := text_append_of_decode d hrun (decode_append_of_eq hnone)
    have heaten : (parserCallbacks.text d run).2 = run.length := htaken
    unfold pushRun
    rw [htext, heaten, Nat.sub_self]
    exact pushLoop_follows he
  | @next run piece more t ht hpiece htext hown hopen hpoints hjoin hleft hmore ih =>
    have hdecode := decode_append_of_eq hown
    have hboth : (decode (d.state.runDecoder (run ++ piece)) (run ++ piece)).2.1 =
        (run ++ piece).length := by
      rw [VTermState.runDecoder_append _ hrun, decode_append piece htaken, List.length_append]
      exact congrArg (run.length + ·) hopen
    rw [pushRun_append stopsInText_parserCallbacks hboth]
    have hlast : (d.call (.text (run ++ piece))).Follows ((d.call (.text run)).call (.text piece)) more :=
      follows_next hd hrun htaken ht hpoints hjoin
        (hleft.imp_right (decoders_next hd hrun htaken ht))
    subst ht
    have hfirst := pushLoop_follows he
    have hpush : pushLoop parserCallbacks (piece ++ more) 0 ⟨.normal, []⟩ (d.call (.text run)) none =
        pushLoop parserCallbacks more 0 ⟨.normal, []⟩ ((d.call (.text run)).call (.text piece))
          none := by
      exact pushLoop_piece hpiece htext hown
    have hrest := ih (List.append_ne_nil_of_left_ne_nil hrun piece) hboth hlast
    rw [hpush] at hfirst
    exact ⟨hfirst.1.trans hrest.1, hrest.2.trans hfirst.2⟩

/-! Calls of webvterm_recv. -/

/-- What is open at a cut goes on in the bytes behind it: a string that is partly saved is not broken
off by another sequence, and a run of text goes on as it would have gone on uncut. -/
def Cut.GoesOn (more : List UInt8) : Cut Display → Prop
  | .between => True
  | .string state saved d frag =>
    frag = [] ∨ ((saved ++ frag).length ≤ strbufferLen ∧
      resumes d.state.isUtf8 more state (saved ++ frag).length = true)
  | .text d run => RunsOn d run more
  | .lost => False

/-- What is open at the end of a call. -/
def VTerm.cut (t : VTerm) (bytes : List UInt8) : Cut Display :=
  cutLoop parserCallbacks bytes 0 t.parser t.display
    (if t.parser.state = .normal then none else some [])

/-- At every cut that has bytes behind it, what is open goes on in them. -/
def CutsGoOn : VTerm → List (List UInt8) → Prop
  | _, [] => True
  | t, bytes :: chunks =>
    (chunks.flatten = [] ∨ (t.cut bytes).GoesOn chunks.flatten) ∧
      CutsGoOn (webvtermRecv t bytes) chunks

/-- The parser, the cursor, the modes, the pens and every cell. -/
structure VTerm.LooksLike (t u : VTerm) : Prop where
  parser : t.parser = u.parser
  pos : t.display.state.pos = u.display.state.pos
  atPhantom : t.display.state.atPhantom = u.display.state.atPhantom
  mode : t.display.state.mode = u.display.state.mode
  pens : t.display.state.pens = u.display.state.pens
  screenPen : t.display.screen.pen = u.display.screen.pen
  cells : ∀ row col, t.display.screen.getCell row col = u.display.screen.getCell row col

def VTerm.Shown (t u : VTerm) : Prop := u.parser = t.parser ∧ t.display.Shown u.display

theorem VTerm.Shown.trans {t u v : VTerm} (h : t.Shown u) (h' : u.Shown v) : t.Shown v :=
  ⟨h'.1.trans h.1, h.2.trans h'.2⟩

theorem VTerm.shown_of_eq {t u : VTerm} (h : t = u) : t.Shown u := by
  subst h
  exact ⟨rfl, rfl, trivial, trivial, rfl⟩

theorem VTerm.Shown.looksLike {t u : VTerm} (h : t.Shown u) : u.LooksLike t := by
  obtain ⟨hparser, hrest, -, -, hscreen⟩ := h
  have hscreen : u.display.screen = t.display.screen := hscreen
  have hfield := fun {α : Type} (field : VTermState → α) => congrArg field hrest
  exact
    { parser := hparser
      pos := hfield VTermState.pos
      atPhantom := hfield VTermState.atPhantom
      mode := hfield VTermState.mode
      pens := hfield VTermState.pens
      screenPen := congrArg VTermScreen.pen hscreen
      cells := fun row col => congrArg (fun s => s.getCell row col) hscreen }

theorem webvtermRecv_nil (t : VTerm) : webvtermRecv t [] = t := by
  unfold webvtermRecv
  rw [pushBytes_nil]

theorem alike_webvtermRecv {t : VTerm} (h : t.display.Alike t.display) (bytes : List UInt8) :
    (webvtermRecv t bytes).display.Alike (webvtermRecv t bytes).display :=
  (pushLoop_related parserCallbacks_related h bytes 0 t.parser _).2

/-- Two calls show what one call with all the bytes shows. -/
theorem webvtermRecv_append {t : VTerm} (ht : t.display.Alike t.display) {bytes more : List UInt8}
    (h : (t.cut bytes).GoesOn more) :
    (webvtermRecv t (bytes ++ more)).Shown (webvtermRecv (webvtermRecv t bytes) more) := by
  have hopen : FragOpen t.parser (if t.parser.state = .normal then none else some []) := by
    split
    · exact fragOpen_none ‹_›
    · exact fragOpen_begun ‹_›
  have hdivides := cutLoop_divides deafToStrings_parserCallbacks stopsInText_parserCallbacks bytes more
    0 t.parser t.display _ hopen
  change (t.cut bytes).Divides parserCallbacks more
    (pushBytes parserCallbacks t.parser t.display (bytes ++ more))
    (pushBytes parserCallbacks t.parser t.display bytes) at hdivides
  change SameShown (pushBytes parserCallbacks t.parser t.display (bytes ++ more))
    (pushBytes parserCallbacks (pushBytes parserCallbacks t.parser t.display bytes).1
      (pushBytes parserCallbacks t.parser t.display bytes).2 more)
  revert hdivides
  generalize pushBytes parserCallbacks t.parser t.display (bytes ++ more) = whole
  generalize pushBytes parserCallbacks t.parser t.display bytes = first
  intro hdivides
  have hsame : ∀ {whole cut : Parser × Display}, whole = cut → SameShown whole cut := by
    rintro whole cut rfl
    exact ⟨rfl, rfl, trivial, trivial, rfl⟩
  unfold pushBytes
  cases hcut : t.cut bytes with
  | between =>
    rw [hcut] at hdivides
    obtain ⟨hnormal, hwhole⟩ := hdivides
    rw [if_pos hnormal]
    exact hsame hwhole
  | string state saved d frag =>
    rw [hcut] at hdivides h
    obtain ⟨hstate, hzero, hfirst, hwhole⟩ := hdivides
    rw [hfirst]
    rcases h with hnil | ⟨hroom, hresumes⟩
    · subst hnil
      rw [save_nil, if_neg hstate]
      exact hsame hwhole
    · rw [save_eq state hzero hroom, if_neg hstate]
      apply hsame
      rw [hwhole]
      exact pushLoop_resumes deafToStrings_parserCallbacks hstate (List.append_nil _).symm hzero
        List.not_mem_nil hresumes
  | text d run =>
    rw [hcut] at hdivides h
    obtain ⟨hrun, htaken, hfirst, hwhole⟩ := hdivides
    have hd : d.Alike d := cutLoop_self parserCallbacks_related ht hcut
    have hfollows : (d.call (.text run)).Follows (d.call (.text run)) more :=
      { hd.call (.text run) with decoders := .inr (hd.call (.text run)).decoders }
    rw [hfirst, hwhole]
    exact RunsOn.sameShown hd h hrun htaken hfollows
  | lost =>
    rw [hcut] at h
    exact h.elim

/-- Where at every cut what is open goes on, the calls show what one call shows. -/
theorem run_webvtermRecv {t : VTerm} (ht : t.display.Alike t.display) {chunks : List (List UInt8)}
    (h : CutsGoOn t chunks) :
    (webvtermRecv t chunks.flatten).Shown (run webvtermRecv t chunks) := by
  induction chunks generalizing t with
  | nil => exact VTerm.shown_of_eq (webvtermRecv_nil t)
  | cons bytes chunks ih =>
    obtain ⟨hcut, hrest⟩ := h
    have hnext := ih (alike_webvtermRecv ht bytes) hrest
    rw [List.flatten_cons]
    rcases hcut with hend | hgoes
    · rw [hend, webvtermRecv_nil] at hnext
      rw [hend, List.append_nil]
      exact hnext
    · exact (webvtermRecv_append ht hgoes).trans hnext

theorem alike_webvtermInit (cols rows : ℤ) (lowMemory : ℤ → ScreenCell) (stack : List ℕ) :
    (webvtermInit cols rows lowMemory stack).display.Alike
      (webvtermInit cols rows lowMemory stack).display where
  rest := rfl
  glyph := ⟨Nat.le_refl 16, Nat.le_refl 16, rfl, rfl, rfl⟩
  decoders := by
    intro slot
    cases slot with
    | set i => exact ⟨rfl, nofun⟩
    | utf8 => exact ⟨rfl, fun _ => ⟨rfl, fun hne => absurd rfl hne⟩⟩
  calls := rfl

/-- From webvterm_init on, however the bytes are cut. -/
theorem chunks_lookLike (cols rows : ℤ) (lowMemory : ℤ → ScreenCell) (stack : List ℕ)
    (chunks : List (List UInt8)) (h : CutsGoOn (webvtermInit cols rows lowMemory stack) chunks) :
    (run webvtermRecv (webvtermInit cols rows lowMemory stack) chunks).LooksLike
      (webvtermRecv (webvtermInit cols rows lowMemory stack) chunks.flatten) :=
  (run_webvtermRecv (alike_webvtermInit cols rows lowMemory stack) h).looksLike

/-- `a` `b ESC` `[ m`: a run of text and a sequence that go on. -/
theorem abSgr_lookLike :
    let t := webvtermInit 5 2 (fun _ => .blank .zero) []
    (run webvtermRecv t [[0x61], [0x62, 0x1b], [0x5b, 0x6d]]).LooksLike
      (webvtermRecv t [[0x61], [0x62, 0x1b], [0x5b, 0x6d]].flatten) := by
  apply chunks_lookLike 5 2 (fun _ => .blank .zero) [] [[0x61], [0x62, 0x1b], [0x5b, 0x6d]]
  refine ⟨.inr ?_, .inr (.inl rfl), .inl rfl, trivial⟩
  change RunsOn _ [0x61] ([0x62] ++ [0x1b, 0x5b, 0x6d])
  exact .next _ rfl (by decide) (by decide +kernel) (by decide +kernel) (by decide +kernel)
    (by decide +kernel) (by decide +kernel) (by decide +kernel) (.stops (by decide +kernel))

/-- `ESC [ 3 1` `CAN a`: the saved part of the aborted sequence is shown in front of the text. -/
theorem abortedCsi_not_lookLike :
    let t := webvtermInit 5 2 (fun _ => .blank .zero) []
    ¬ (run webvtermRecv t [[0x1b, 0x5b, 0x33, 0x31], [0x18, 0x61]]).LooksLike
      (webvtermRecv t [[0x1b, 0x5b, 0x33, 0x31], [0x18, 0x61]].flatten) := by
  intro t h
  have hcut : ((run webvtermRecv t [[0x1b, 0x5b, 0x33, 0x31], [0x18, 0x61]]).display.screen.getCell
    0 0).chars = [0x33] := by decide +kernel
  have hwhole : ((webvtermRecv t [[0x1b, 0x5b, 0x33, 0x31], [0x18, 0x61]].flatten).display.screen.getCell
    0 0).chars = [0x61] := by decide +kernel
  rw [h.cells 0 0, hwhole] at hcut
  contradiction

end Jterm.Vterm
