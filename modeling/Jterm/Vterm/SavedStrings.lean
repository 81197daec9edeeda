import Jterm.Vterm.Parser
import Mathlib.Data.List.TakeDrop
import Mathlib.Data.List.TakeWhile

/-!
Strings that go on in the next read. What is saved of a string comes back when the string is
complete, and is lost to it when another sequence breaks it off: then the saved part stays in
`strbuffer`, and the next string or text gets it.
-/
namespace Jterm.Vterm

/-- What a byte does to an open string of `len` bytes: it becomes part of it, in a state that
may be a new one, or ends it. -/
inductive StringByte
  | part (next : ParserState)
  | ends (kept : Bool)
  deriving DecidableEq, Repr

/-- A byte that is no control. A string is kept if the byte completes it, at a length that
`strbuffer` holds, and not if the byte begins another one. -/
def stringChar (utf8 : Bool) (state : ParserState) (len : ℕ) (c : UInt8) : StringByte :=
  match state with
  | .esc =>
    if c = 0x50 ∨ c = 0x5b ∨ c = 0x5d then .ends false
    else if 0x30 ≤ c ∧ c < 0x7f then .ends (len + 1 ≤ strbufferLen)
    else .part .esc
  | .csi => if 0x40 ≤ c ∧ c ≤ 0x7f then .ends (len + 1 ≤ strbufferLen) else .part .csi
  | .osc => if c = 0x9c ∧ utf8 = false then .ends true else .part .osc
  | .dcs => if c = 0x9c ∧ utf8 = false then .ends true else .part .dcs
  | .escInOsc | .escInDcs => .ends (c = 0x5c)
  | .normal => .ends false

/-- A control saves the string; CAN, SUB and ESC break it off. -/
def stringByte (utf8 : Bool) (state : ParserState) (len : ℕ) (c : UInt8) : StringByte :=
  if c = 0x00 ∨ c = 0x7f then .ends (len ≤ strbufferLen)
  else if c = 0x18 ∨ c = 0x1a then .ends false
  else if c = 0x1b then
    match state with
    | .osc => .part .escInOsc
    | .dcs => .part .escInDcs
    | _ => .ends false
  else if c = 0x07 ∧ (state = .osc ∨ state = .dcs) then .ends true
  else if c < 0x20 then .ends (len ≤ strbufferLen)
  else stringChar utf8 state len c

/-- An open string of `len` bytes is kept until it is complete, or until the bytes end. -/
def resumes (utf8 : Bool) : List UInt8 → ParserState → ℕ → Bool
  | [], _, len => len ≤ strbufferLen
  | c :: bytes, state, len =>
    match stringByte utf8 state len c with
    | .part next => resumes utf8 bytes next (len + 1)
    | .ends kept => kept

/-- What `strbuffer` holds of a string behind what was in it before. -/
def gathered (saved body : List UInt8) : List UInt8 :=
  saved ++ body.take (strbufferLen - saved.length)

theorem strncpy_take {str : List UInt8} {n : ℕ} (hzero : 0 ∉ str) (hn : n ≤ str.length) :
    strncpy str n = str.take n := by
  have hcopied : (str.take n).takeWhile (· ≠ 0) = str.take n := by
    rw [List.takeWhile_eq_self_iff]
    intro c hc
    rw [decide_eq_true_eq]
    rintro rfl
    exact hzero (List.mem_of_mem_take hc)
  unfold strncpy
  dsimp only
  rw [hcopied, List.length_take, Nat.min_eq_left hn, Nat.sub_self, List.replicate_zero,
    List.append_nil]

theorem appendStrbuffer_eq (state : ParserState) (saved : List UInt8) {str : List UInt8}
    (hzero : 0 ∉ str) :
    Parser.appendStrbuffer ⟨state, saved⟩ str str.length = ⟨state, gathered saved str⟩ := by
  unfold Parser.appendStrbuffer gathered
  dsimp only
  rw [strncpy_take hzero (Nat.min_le_left _ _)]
  congr 2
  rw [List.take_eq_take_iff]
  omega

theorem gathered_append (saved got rest : List UInt8) :
    gathered (gathered saved got) rest = gathered saved (got ++ rest) := by
  unfold gathered
  rw [List.append_assoc, List.take_append, List.length_append, List.length_take]
  congr 2
  rw [List.take_eq_take_iff]
  omega

theorem gathered_nil (saved : List UInt8) : gathered saved [] = saved := by
  unfold gathered
  rw [List.take_nil, List.append_nil]

theorem save_nil (p : Parser) : p.save [] = p := by
  change Parser.appendStrbuffer ⟨p.state, p.strbuffer⟩ [] ([] : List UInt8).length = p
  rw [appendStrbuffer_eq _ _ List.not_mem_nil, gathered_nil]

/-- Where there is room, a fragment without a zero is saved as it is. -/
theorem save_eq (state : ParserState) {saved frag : List UInt8} (hzero : 0 ∉ frag)
    (hroom : (saved ++ frag).length ≤ strbufferLen) :
    Parser.save ⟨state, saved⟩ frag = ⟨state, saved ++ frag⟩ := by
  rw [List.length_append] at hroom
  have hall : frag.take (strbufferLen - saved.length) = frag :=
    List.take_of_length_le (by omega)
  unfold Parser.save
  rw [appendStrbuffer_eq state saved hzero, gathered, hall]

theorem wholeString_eq (state : ParserState) {saved str : List UInt8} (hzero : 0 ∉ str)
    (hroom : (saved ++ str).length ≤ strbufferLen) :
    Parser.wholeString ⟨state, saved⟩ str str.length = saved ++ str := by
  unfold Parser.wholeString
  split
  · rename_i hsaved
    dsimp only at hsaved
    rw [hsaved, List.take_length, List.nil_append]
  · change (Parser.save ⟨state, saved⟩ str).strbuffer = _
    rw [save_eq state hzero hroom]

section
variable {σ : Type*} {cb : ParserCallbacks σ}

theorem pushBytes_nil (p : Parser) (s : σ) : pushBytes cb p s [] = (p, s) := by
  unfold pushBytes
  split
  · rfl
  · change (p.save [], s) = _
    rw [save_nil]

theorem pushLoop_cons {p p' : Parser} {s s' : σ} {frag frag' : Option (List UInt8)} {c : UInt8}
    {rest : List UInt8} (h : pushByte cb p s frag c rest = some (p', s', frag')) :
    pushLoop cb (c :: rest) 0 p s frag = pushLoop cb rest 0 p' s' frag' := by
  rw [pushLoop, h]

/-- The state does not look at the strings of OSC and DCS. -/
structure DeafToStrings (cb : ParserCallbacks σ) : Prop where
  osc : ∀ s str str', cb.osc s str = cb.osc s str'
  dcs : ∀ s str str', cb.dcs s str = cb.dcs s str'

/-- A byte that is no control goes to the string. -/
theorem pushByte_string {p : Parser} (s : σ) (frag : List UInt8) {c : UInt8} (rest : List UInt8)
    (hstate : p.state ≠ .normal) (hnul : ¬ (c = 0x00 ∨ c = 0x7f)) (hcan : ¬ (c = 0x18 ∨ c = 0x1a))
    (hesc : c ≠ 0x1b) (hplain : (c = 0x07 ∧ (p.state = .osc ∨ p.state = .dcs)) ∨ ¬ c < 0x20) :
    pushByte cb p s (some frag) c rest = some (pushString cb p s frag c rest) := by
  unfold pushByte pushControl
  rw [if_neg hnul, if_neg hcan, if_neg hesc]
  by_cases hbel : c = 0x07 ∧ (p.state = .osc ∨ p.state = .dcs)
  · rw [if_pos hbel]
    exact if_pos hstate
  · rw [if_neg hbel, if_neg (hplain.resolve_left hbel)]
    exact if_pos hstate

theorem pushEsc_of_not_introducer {p : Parser} {s : σ} {frag : List UInt8} {c : UInt8}
    (h : ¬ (c = 0x50 ∨ c = 0x5b ∨ c = 0x5d)) :
    pushEsc cb p s frag c =
      if 0x30 ≤ c ∧ c < 0x7f then
        ((finishString cb p s (frag ++ [c]) (frag.length + 1)).1,
          (finishString cb p s (frag ++ [c]) (frag.length + 1)).2, none)
      else (p, s, some (frag ++ [c])) := by
  unfold pushEsc
  rw [if_neg fun hc => h (.inl hc), if_neg fun hc => h (.inr (.inl hc)),
    if_neg fun hc => h (.inr (.inr hc))]

theorem pushByte_part {state next : ParserState} {s : σ} {len : ℕ} {c : UInt8}
    (saved frag rest : List UInt8) (h : stringByte (cb.isUtf8 s) state len c = .part next) :
    pushByte cb ⟨state, saved⟩ s (some frag) c rest =
        some (⟨next, saved⟩, s, some (frag ++ [c])) ∧ next ≠ .normal ∧ c ≠ 0 := by
  unfold stringByte at h
  by_cases hnul : c = 0x00 ∨ c = 0x7f
  · rw [if_pos hnul] at h
    contradiction
  by_cases hcan : c = 0x18 ∨ c = 0x1a
  · rw [if_neg hnul, if_pos hcan] at h
    contradiction
  rw [if_neg hnul, if_neg hcan] at h
  have hne : c ≠ 0 := fun hzero => hnul (.inl hzero)
  by_cases hesc : c = 0x1b
  · rw [if_pos hesc] at h
    unfold pushByte pushControl
    rw [if_neg hnul, if_neg hcan, if_pos hesc]
    cases state with
    | osc =>
      cases h
      exact ⟨rfl, by decide, hne⟩
    | dcs =>
      cases h
      exact ⟨rfl, by decide, hne⟩
    | normal | csi | esc | escInOsc | escInDcs => contradiction
  by_cases hbel : c = 0x07 ∧ (state = .osc ∨ state = .dcs)
  · rw [if_neg hesc, if_pos hbel] at h
    contradiction
  by_cases hc0 : c < 0x20
  · rw [if_neg hesc, if_neg hbel, if_pos hc0] at h
    contradiction
  rw [if_neg hesc, if_neg hbel, if_neg hc0] at h
  unfold stringChar at h
  have hpush : state ≠ .normal → pushByte cb ⟨state, saved⟩ s (some frag) c rest =
      some (pushString cb ⟨state, saved⟩ s frag c rest) := fun hstate =>
    pushByte_string s frag rest hstate hnul hcan hesc (.inr hc0)
  cases state with
  | normal => contradiction
  | esc =>
    dsimp only at h
    split_ifs at h with hintroducer hfinal
    cases h
    rw [hpush nofun]
    refine ⟨?_, by decide, hne⟩
    unfold pushString
    dsimp only
    rw [pushEsc_of_not_introducer hintroducer, if_neg hfinal]
  | csi =>
    dsimp only at h
    split_ifs at h with hfinal
    cases h
    rw [hpush nofun]
    refine ⟨?_, by decide, hne⟩
    unfold pushString
    dsimp only
    rw [if_neg hfinal]
  | osc | dcs =>
    dsimp only at h
    split_ifs at h with hst
    cases h
    rw [hpush nofun]
    refine ⟨?_, by decide, hne⟩
    unfold pushString
    dsimp only
    rw [if_neg (not_or.mpr ⟨fun hc => hbel ⟨hc, by decide⟩, hst⟩)]
  | escInOsc | escInDcs => contradiction

theorem zero_not_mem_append {frag : List UInt8} (h : 0 ∉ frag) {c : UInt8} (hc : c ≠ 0) :
    0 ∉ frag ++ [c] := by
  rw [List.mem_append, List.mem_singleton]
  exact not_or.mpr ⟨h, hc.symm⟩

/-- A final byte completes the string, however much of it is saved. -/
theorem finishString_append {state : ParserState} {saved saved' frag frag' : List UInt8} {s : σ}
    {c : UInt8} (hsame : saved ++ frag = saved' ++ frag') (hzero : 0 ∉ frag) (hzero' : 0 ∉ frag')
    (hc : c ≠ 0) (hroom : (saved ++ frag).length + 1 ≤ strbufferLen) :
    finishString cb ⟨state, saved⟩ s (frag ++ [c]) (frag.length + 1) =
      finishString cb ⟨state, saved'⟩ s (frag' ++ [c]) (frag'.length + 1) := by
  have hwhole : ∀ {saved frag : List UInt8}, 0 ∉ frag →
      (saved ++ frag).length + 1 ≤ strbufferLen →
        Parser.wholeString ⟨state, saved⟩ (frag ++ [c]) (frag.length + 1) = saved ++ frag ++ [c] := by
    intro saved frag hfrag hlength
    have hlast : (frag ++ [c]).length = frag.length + 1 := by simp
    rw [← hlast, wholeString_eq state (zero_not_mem_append hfrag hc), List.append_assoc]
    rw [← List.append_assoc, List.length_append, List.length_singleton]
    exact hlength
  unfold finishString
  rw [hwhole hzero hroom, hwhole hzero' (hsame ▸ hroom), hsame]

/-- OSC and DCS end the same, whatever was in them. -/
theorem finishString_deaf (hcb : DeafToStrings cb) {state : ParserState}
    (hstate : state = .osc ∨ state = .dcs) (saved saved' str str' : List UInt8) (s : σ) (len len' : ℕ) :
    finishString cb ⟨state, saved⟩ s str len = finishString cb ⟨state, saved'⟩ s str' len' := by
  unfold finishString
  rcases hstate with rfl | rfl
  · exact congrArg (Prod.mk _) (hcb.osc s _ _)
  · exact congrArg (Prod.mk _) (hcb.dcs s _ _)

theorem pushEscIn_deaf (hcb : DeafToStrings cb) {state string : ParserState}
    (hstring : string = .osc ∨ string = .dcs) (saved saved' frag frag' : List UInt8) (s : σ)
    (rest rest' : List UInt8) :
    pushEscIn cb ⟨state, saved⟩ s string frag 0x5c rest =
      pushEscIn cb ⟨state, saved'⟩ s string frag' 0x5c rest' := by
  have hend := fun str str' len len' => congrArg (fun r => (r.1, r.2, (none : Option (List UInt8))))
    (finishString_deaf hcb hstring saved saved' str str' s len len')
  unfold pushEscIn Parser.enter
  rw [if_pos rfl, if_pos rfl]
  split_ifs
  · exact hend _ _ _ _
  · exact hend _ _ _ _
  · exact hend _ _ _ _
  · exact hend _ _ _ _

theorem pushString_kept (hcb : DeafToStrings cb) {state : ParserState}
    {saved saved' frag frag' : List UInt8} {s : σ} {c : UInt8} (rest : List UInt8)
    (hsame : saved ++ frag = saved' ++ frag') (hzero : 0 ∉ frag) (hzero' : 0 ∉ frag') (hc : c ≠ 0)
    (h : stringChar (cb.isUtf8 s) state (saved ++ frag).length c = .ends true) :
    pushString cb ⟨state, saved'⟩ s frag' c rest = pushString cb ⟨state, saved⟩ s frag c rest := by
  unfold stringChar at h
  unfold pushString
  cases state with
  | normal => cases h
  | esc =>
    dsimp only at h ⊢
    split_ifs at h with hintroducer hfinal
    · cases h
    · rw [StringByte.ends.injEq, decide_eq_true_eq] at h
      rw [pushEsc_of_not_introducer hintroducer, pushEsc_of_not_introducer hintroducer,
        if_pos hfinal, if_pos hfinal, finishString_append hsame hzero hzero' hc h]
  | csi =>
    dsimp only at h ⊢
    split_ifs at h with hfinal
    rw [StringByte.ends.injEq, decide_eq_true_eq] at h
    rw [if_pos hfinal, if_pos hfinal, finishString_append hsame hzero hzero' hc h]
  | osc =>
    dsimp only at h ⊢
    split_ifs at h with hst
    rw [if_pos (.inr hst), if_pos (.inr hst),
      finishString_deaf hcb (.inl rfl) saved saved' frag frag' s frag.length frag'.length]
  | dcs =>
    dsimp only at h ⊢
    split_ifs at h with hst
    rw [if_pos (.inr hst), if_pos (.inr hst),
      finishString_deaf hcb (.inr rfl) saved saved' frag frag' s frag.length frag'.length]
  | escInOsc =>
    rw [StringByte.ends.injEq, decide_eq_true_eq] at h
    rw [h]
    exact pushEscIn_deaf hcb (.inl rfl) saved' saved frag' frag s rest rest
  | escInDcs =>
    rw [StringByte.ends.injEq, decide_eq_true_eq] at h
    rw [h]
    exact pushEscIn_deaf hcb (.inr rfl) saved' saved frag' frag s rest rest

theorem pushByte_kept (hcb : DeafToStrings cb) {state : ParserState}
    {saved saved' frag frag' : List UInt8} {s : σ} {c : UInt8} (rest : List UInt8)
    (hstate : state ≠ .normal)
    (hsame : saved ++ frag = saved' ++ frag') (hzero : 0 ∉ frag) (hzero' : 0 ∉ frag')
    (h : stringByte (cb.isUtf8 s) state (saved ++ frag).length c = .ends true) :
    ∃ next, pushByte cb ⟨state, saved⟩ s (some frag) c rest = some next ∧
      pushByte cb ⟨state, saved'⟩ s (some frag') c rest = some next := by
  have hsave : (saved ++ frag).length ≤ strbufferLen →
      Parser.save ⟨state, saved⟩ frag = Parser.save ⟨state, saved'⟩ frag' := by
    intro hroom
    rw [save_eq state hzero hroom, save_eq state hzero' (hsame ▸ hroom), hsame]
  unfold stringByte at h
  by_cases hnul : c = 0x00 ∨ c = 0x7f
  · rw [if_pos hnul, StringByte.ends.injEq, decide_eq_true_eq] at h
    have hcontrol : ∀ saved frag, pushByte cb ⟨state, saved⟩ s (some frag) c rest =
        some (Parser.save ⟨state, saved⟩ frag, s, some []) := by
      intro saved frag
      unfold pushByte pushControl
      rw [if_pos hnul]
      dsimp only
      rw [if_pos hstate]
      rfl
    exact ⟨_, hcontrol saved frag, by rw [hcontrol, hsave h]⟩
  by_cases hcan : c = 0x18 ∨ c = 0x1a
  · rw [if_neg hnul, if_pos hcan] at h
    contradiction
  rw [if_neg hnul, if_neg hcan] at h
  by_cases hesc : c = 0x1b
  · rw [if_pos hesc] at h
    cases state <;> contradiction
  rw [if_neg hesc] at h
  have hpush : (c = 0x07 ∧ (state = .osc ∨ state = .dcs)) ∨ ¬ c < 0x20 → ∀ saved frag,
      pushByte cb ⟨state, saved⟩ s (some frag) c rest =
        some (pushString cb ⟨state, saved⟩ s frag c rest) := fun hplain saved frag =>
    pushByte_string s frag rest hstate hnul hcan hesc hplain
  by_cases hbel : c = 0x07 ∧ (state = .osc ∨ state = .dcs)
  · refine ⟨_, hpush (.inl hbel) saved frag, ?_⟩
    rw [hpush (.inl hbel) saved' frag']
    have hend := congrArg (fun r => some (r.1, r.2, (none : Option (List UInt8))))
      (finishString_deaf hcb hbel.2 saved' saved frag' frag s frag'.length frag.length)
    unfold pushString
    rcases hbel with ⟨rfl, rfl | rfl⟩
    · exact hend
    · exact hend
  rw [if_neg hbel] at h
  by_cases hc0 : c < 0x20
  · rw [if_pos hc0, StringByte.ends.injEq, decide_eq_true_eq] at h
    have hcontrol : ∀ saved frag, pushByte cb ⟨state, saved⟩ s (some frag) c rest =
        some (Parser.save ⟨state, saved⟩ frag, cb.control s c, some []) := by
      intro saved frag
      unfold pushByte pushControl
      rw [if_neg hnul, if_neg hcan, if_neg hesc, if_neg hbel, if_pos hc0]
      dsimp only
      rw [if_pos hstate]
      rfl
    exact ⟨_, hcontrol saved frag, by rw [hcontrol, hsave h]⟩
  rw [if_neg hc0] at h
  refine ⟨_, hpush (.inr hc0) saved frag, ?_⟩
  rw [hpush (.inr hc0) saved' frag', pushString_kept hcb rest hsame hzero hzero'
    (fun hc => hnul (.inl hc)) h]

/-- A string goes on with what of it is saved and what is not: `resumes` bytes do not tell how much
of it is saved. -/
theorem pushLoop_resumes (hcb : DeafToStrings cb) {bytes : List UInt8} {state : ParserState}
    {saved saved' frag frag' : List UInt8} {s : σ} (hstate : state ≠ .normal)
    (hsame : saved ++ frag = saved' ++ frag') (hzero : 0 ∉ frag) (hzero' : 0 ∉ frag')
    (h : resumes (cb.isUtf8 s) bytes state (saved ++ frag).length = true) :
    pushLoop cb bytes 0 ⟨state, saved⟩ s (some frag) =
      pushLoop cb bytes 0 ⟨state, saved'⟩ s (some frag') := by
  induction bytes generalizing state frag frag' with
  | nil =>
    have hroom : (saved ++ frag).length ≤ strbufferLen := of_decide_eq_true h
    unfold pushLoop
    dsimp only
    rw [save_eq state hzero hroom, save_eq state hzero' (hsame ▸ hroom), hsame]
  | cons c rest ih =>
    unfold resumes at h
    cases hbyte : stringByte (cb.isUtf8 s) state (saved ++ frag).length c with
    | part next =>
      rw [hbyte] at h
      obtain ⟨hpush, hnext, hc⟩ := pushByte_part saved frag rest hbyte
      obtain ⟨hpush', -, -⟩ := pushByte_part saved' frag' rest hbyte
      rw [pushLoop_cons hpush, pushLoop_cons hpush']
      apply ih hnext
      · rw [← List.append_assoc, ← List.append_assoc, hsame]
      · simp [hzero, hc.symm]
      · simp [hzero', hc.symm]
      · rw [← List.append_assoc, List.length_append]
        exact h
    | ends kept =>
      rw [hbyte] at h
      dsimp only at h
      subst h
      obtain ⟨⟨p, t, next⟩, hpush, hpush'⟩ :=
        pushByte_kept hcb rest hstate hsame hzero hzero' hbyte
      rw [pushLoop_cons hpush, pushLoop_cons hpush']

end

end Jterm.Vterm
