import Jterm.Vterm.JoinedRuns
import Jterm.Vterm.SavedStrings

/-!
Where a read ends: between two sequences, in a string, or in a run of text. The parser does with
two reads what it does with one where the string is kept and where the rest of the run, with the
decoder that is chosen for it, gives the code points the run would have gone on with.
-/
namespace Jterm.Vterm

open Runs

/-- What is open at the end of the bytes of a read. `lost` stands for text that was given what was
left of a string, or that was not eaten. -/
inductive Cut (σ : Type*)
  | between
  | string (state : ParserState) (saved : List UInt8) (s : σ) (frag : List UInt8)
  | text (s : σ) (run : List UInt8)
  | lost

section Parser
variable {σ : Type*} (cb : ParserCallbacks σ)

/-- The loop of vterm_push_bytes, up to what is open at its end. -/
def cutLoop : List UInt8 → ℕ → Parser → σ → Option (List UInt8) → Cut σ
  | [], skip, p, s, frag =>
    if skip ≠ 0 then .lost
    else
      match frag with
      | none => .between
      | some frag => .string p.state p.strbuffer s frag
  | c :: rest, skip, p, s, frag =>
    match skip with
    | skip + 1 => cutLoop rest skip p s frag
    | 0 =>
      match pushByte cb p s frag c rest with
      | some (p, s, frag) => cutLoop rest 0 p s frag
      | none =>
        if p.strbuffer ≠ [] ∨ (cb.text s (c :: rest)).2 = 0 then .lost
        else if (cb.text s (c :: rest)).2 = rest.length + 1 then .text s (c :: rest)
        else cutLoop rest ((cb.text s (c :: rest)).2 - 1) p (cb.text s (c :: rest)).1 none

/-- The run of text goes on in the next bytes. -/
def pushRun (s : σ) (run bytes : List UInt8) : Parser × σ :=
  pushLoop cb bytes ((cb.text s (run ++ bytes)).2 - run.length) ⟨.normal, []⟩
    (cb.text s (run ++ bytes)).1 none

/-- A cut, by what the parser does with all bytes and with those of the first read. -/
def Cut.Divides (more : List UInt8) (whole first : Parser × σ) : Cut σ → Prop
  | .between => first.1.state = .normal ∧ whole = pushLoop cb more 0 first.1 first.2 none
  | .string state saved s frag =>
    state ≠ .normal ∧ 0 ∉ frag ∧ first = (Parser.save ⟨state, saved⟩ frag, s) ∧
      whole = pushLoop cb more 0 ⟨state, saved⟩ s (some frag)
  | .text s run =>
    run ≠ [] ∧ (cb.text s run).2 = run.length ∧ first = (⟨.normal, []⟩, (cb.text s run).1) ∧
      whole = pushRun cb s run more
  | .lost => True

/-- A callback for text stops where it stops, whatever follows. -/
structure StopsInText : Prop where
  stops : ∀ {s run} more, (cb.text s run).2 < run.length → cb.text s (run ++ more) = cb.text s run
  goes : ∀ {s run} more, (cb.text s run).2 = run.length → run.length ≤ (cb.text s (run ++ more)).2
  eaten : ∀ s run, (cb.text s run).2 ≤ run.length

theorem pushLoop_skip (bytes more : List UInt8) (skip : ℕ) (p : Parser) (s : σ)
    (frag : Option (List UInt8)) :
    pushLoop cb (bytes ++ more) (bytes.length + skip) p s frag =
      pushLoop cb more skip p s frag := by
  induction bytes with
  | nil => rw [List.nil_append, List.length_nil, Nat.zero_add]
  | cons c bytes ih =>
    rw [List.cons_append, List.length_cons, Nat.add_right_comm, pushLoop]
    exact ih

variable {cb}

theorem pushText_eq {s : σ} {str : List UInt8} :
    pushText cb ⟨.normal, []⟩ s str = (⟨.normal, []⟩, (cb.text s str).1, (cb.text s str).2) := by
  unfold pushText Parser.wholeString
  rw [if_pos rfl, List.take_length]

/-- Text of which something is eaten. -/
theorem pushLoop_text {s : σ} {c : UInt8} {rest : List UInt8}
    (hbyte : pushByte cb ⟨.normal, []⟩ s none c rest = none)
    (heaten : (cb.text s (c :: rest)).2 ≠ 0) :
    pushLoop cb (c :: rest) 0 ⟨.normal, []⟩ s none =
      pushLoop cb rest ((cb.text s (c :: rest)).2 - 1) ⟨.normal, []⟩ (cb.text s (c :: rest)).1
        none := by
  rw [pushLoop, hbyte, pushText_eq]
  exact if_neg heaten

/-- Between two bytes a fragment is open, without a zero, outside NORMAL. -/
def FragOpen (p : Parser) (frag : Option (List UInt8)) : Prop :=
  (frag = none ↔ p.state = .normal) ∧ ∀ f ∈ frag, 0 ∉ f

theorem fragOpen_none {p : Parser} (h : p.state = .normal) : FragOpen p none :=
  ⟨iff_of_true rfl h, nofun⟩

theorem fragOpen_some {p : Parser} (h : p.state ≠ .normal) {frag : List UInt8} (hzero : 0 ∉ frag) :
    FragOpen p (some frag) := by
  refine ⟨iff_of_false nofun h, ?_⟩
  rintro f ⟨⟩
  exact hzero

theorem fragOpen_begun {p : Parser} (h : p.state ≠ .normal) : FragOpen p (some []) :=
  fragOpen_some h List.not_mem_nil

theorem pushEsc_fragOpen {p : Parser} {s : σ} {frag : List UInt8} {c : UInt8}
    (h : p.state ≠ .normal) (hzero : 0 ∉ frag) (hc : c ≠ 0) :
    FragOpen (pushEsc cb p s frag c).1 (pushEsc cb p s frag c).2.2 := by
  unfold pushEsc
  split_ifs
  · exact fragOpen_begun (p := p.enter .dcs) (by simp [Parser.enter])
  · exact fragOpen_begun (p := p.enter .csi) (by simp [Parser.enter])
  · exact fragOpen_begun (p := p.enter .osc) (by simp [Parser.enter])
  · exact fragOpen_none rfl
  · exact fragOpen_some h (zero_not_mem_append hzero hc)

theorem pushEscIn_fragOpen {p : Parser} {s : σ} {string : ParserState} {frag : List UInt8}
    {c : UInt8} {rest : List UInt8} (hc : c ≠ 0) :
    FragOpen (pushEscIn cb p s string frag c rest).1
      (pushEscIn cb p s string frag c rest).2.2 := by
  unfold pushEscIn
  split_ifs
  · exact fragOpen_none rfl
  · exact fragOpen_none rfl
  · exact pushEsc_fragOpen (by simp [Parser.enter]) List.not_mem_nil hc

theorem pushString_fragOpen {p : Parser} {s : σ} {frag : List UInt8} {c : UInt8}
    {rest : List UInt8} (h : p.state ≠ .normal) (hzero : 0 ∉ frag) (hc : c ≠ 0) :
    FragOpen (pushString cb p s frag c rest).1 (pushString cb p s frag c rest).2.2 := by
  have hopen : FragOpen p (some (frag ++ [c])) := fragOpen_some h (zero_not_mem_append hzero hc)
  unfold pushString
  split
  · exact pushEscIn_fragOpen hc
  · exact pushEscIn_fragOpen hc
  · exact pushEsc_fragOpen h hzero hc
  · split
    · exact fragOpen_none rfl
    · exact hopen
  · split
    · exact fragOpen_none rfl
    · exact hopen
  · split
    · exact fragOpen_none rfl
    · exact hopen
  · rename_i hstate
    exact absurd hstate h

theorem pushControl_fragOpen {p : Parser} {s : σ} {frag : Option (List UInt8)} {c : UInt8}
    (h : FragOpen p frag) :
    ∀ next ∈ pushControl cb p s frag c, FragOpen next.1 next.2.2 := by
  unfold pushControl
  split_ifs with hnul hstate hcan hesc hbel hc0 hstate
  · rintro next ⟨⟩
    exact fragOpen_begun (p := p.save (frag.getD [])) hstate
  · rintro next ⟨⟩
    exact h
  · rintro next ⟨⟩
    exact fragOpen_none rfl
  · rintro next ⟨⟩
    have hmap : ∀ {state next : ParserState}, p.state = state → state ≠ .normal →
        next ≠ .normal → FragOpen (p.enter next) (frag.map (· ++ [c])) := by
      rintro state next rfl hstate hnext
      cases frag with
      | none => exact absurd (h.1.mp rfl) hstate
      | some f =>
        exact fragOpen_some (p := p.enter next) hnext
          (zero_not_mem_append (h.2 f rfl) fun hc => hnul (.inl hc))
    split
    · rename_i hstate
      exact hmap hstate (by decide) (by decide)
    · rename_i hstate
      exact hmap hstate (by decide) (by decide)
    · exact fragOpen_begun (p := p.enter .esc) (by simp [Parser.enter])
  · exact nofun
  · rintro next ⟨⟩
    exact fragOpen_begun (p := p.save (frag.getD [])) hstate
  · rintro next ⟨⟩
    exact h
  · exact nofun

/-- A byte that is no control is none of those pushControl takes. -/
theorem pushControl_none {p : Parser} {s : σ} {frag : Option (List UInt8)} {c : UInt8}
    (h : pushControl cb p s frag c = none) : c ≠ 0 := by
  rintro rfl
  cases h

theorem pushByte_fragOpen {p p' : Parser} {s s' : σ} {frag frag' : Option (List UInt8)} {c : UInt8}
    {rest : List UInt8} (h : FragOpen p frag)
    (hbyte : pushByte cb p s frag c rest = some (p', s', frag')) : FragOpen p' frag' := by
  unfold pushByte at hbyte
  cases hcontrol : pushControl cb p s frag c with
  | some next =>
    rw [hcontrol] at hbyte
    cases hbyte
    exact pushControl_fragOpen h _ hcontrol
  | none =>
    rw [hcontrol] at hbyte
    dsimp only at hbyte
    split_ifs at hbyte with hstate hc1
    · cases hfrag : frag with
      | none => exact absurd (h.1.mp hfrag) hstate
      | some f =>
        have hopen : FragOpen (pushString cb p s f c rest).1 (pushString cb p s f c rest).2.2 :=
          pushString_fragOpen hstate (h.2 f hfrag) (pushControl_none hcontrol)
        rw [hfrag, Option.getD_some, Option.some.injEq] at hbyte
        rw [hbyte] at hopen
        exact hopen
    · have hopen : FragOpen (pushC1 cb p s c).1 (pushC1 cb p s c).2.2 := by
        unfold pushC1
        split_ifs
        · exact fragOpen_begun (p := p.enter .dcs) (by simp [Parser.enter])
        · exact fragOpen_begun (p := p.enter .csi) (by simp [Parser.enter])
        · exact fragOpen_begun (p := p.enter .osc) (by simp [Parser.enter])
        · exact fragOpen_none (not_not.mp hstate)
      rw [Option.some.injEq] at hbyte
      rw [hbyte] at hopen
      exact hopen

theorem pushEscIn_rest (hcb : DeafToStrings cb) {string : ParserState}
    (hstring : string = .osc ∨ string = .dcs) (p : Parser) (s : σ) (frag : List UInt8) (c : UInt8)
    (rest rest' : List UInt8) :
    pushEscIn cb p s string frag c rest = pushEscIn cb p s string frag c rest' := by
  by_cases hst : c = 0x5c
  · subst hst
    exact pushEscIn_deaf hcb hstring p.strbuffer p.strbuffer frag frag s rest rest'
  · unfold pushEscIn
    rw [if_neg hst, if_neg hst]

/-- What follows a byte is looked at by an ESC `\` that the read begins with, for a string that
nobody looks at. -/
theorem pushByte_rest (hcb : DeafToStrings cb) (p : Parser) (s : σ) (frag : Option (List UInt8))
    (c : UInt8) (rest rest' : List UInt8) :
    pushByte cb p s frag c rest = pushByte cb p s frag c rest' := by
  have hstring : pushString cb p s (frag.getD []) c rest =
      pushString cb p s (frag.getD []) c rest' := by
    unfold pushString
    split
    · exact pushEscIn_rest hcb (.inl rfl) p s _ c rest rest'
    · exact pushEscIn_rest hcb (.inr rfl) p s _ c rest rest'
    all_goals rfl
  unfold pushByte
  rw [hstring]

theorem pushByte_none {p : Parser} {s : σ} {frag : Option (List UInt8)} {c : UInt8}
    {rest : List UInt8} (h : pushByte cb p s frag c rest = none) : p.state = .normal := by
  by_contra hstate
  unfold pushByte at h
  rw [if_pos hstate] at h
  split at h
  · cases h
  · cases h

theorem cutLoop_divides (hcb : DeafToStrings cb) (htext : StopsInText cb) (bytes more : List UInt8)
    (skip : ℕ) (p : Parser) (s : σ) (frag : Option (List UInt8)) (h : FragOpen p frag) :
    (cutLoop cb bytes skip p s frag).Divides cb more (pushLoop cb (bytes ++ more) skip p s frag)
      (pushLoop cb bytes skip p s frag) := by
  induction bytes generalizing skip p s frag with
  | nil =>
    unfold cutLoop
    by_cases hskip : skip = 0
    · subst hskip
      rw [if_neg (by decide)]
      cases frag with
      | none =>
        exact ⟨h.1.mp rfl, rfl⟩
      | some frag =>
        exact ⟨fun hstate => Option.some_ne_none frag (h.1.mpr hstate), h.2 frag rfl, rfl, rfl⟩
    · rw [if_pos hskip]
      trivial
  | cons c rest ih =>
    cases skip with
    | succ skip => exact ih skip p s frag h
    | zero =>
      unfold cutLoop
      cases hbyte : pushByte cb p s frag c rest with
      | some next =>
        obtain ⟨p', s', frag'⟩ := next
        have hall : pushByte cb p s frag c (rest ++ more) = some (p', s', frag') := by
          rw [pushByte_rest hcb p s frag c (rest ++ more) rest, hbyte]
        rw [List.cons_append, pushLoop_cons hbyte, pushLoop_cons hall]
        exact ih 0 p' s' frag' (pushByte_fragOpen h hbyte)
      | none =>
        dsimp only
        by_cases hlost : p.strbuffer ≠ [] ∨ (cb.text s (c :: rest)).2 = 0
        · rw [if_pos hlost]
          trivial
        rw [if_neg hlost]
        obtain ⟨hstrbuffer, heaten⟩ := not_or.mp hlost
        obtain ⟨state, strbuffer⟩ := p
        have hstate : state = .normal := pushByte_none hbyte
        have hempty : strbuffer = [] := not_not.mp hstrbuffer
        have hfrag : frag = none := h.1.mpr hstate
        subst hstate hempty hfrag
        have hall : pushByte cb ⟨.normal, []⟩ s none c (rest ++ more) = none := by
          rw [pushByte_rest hcb _ s none c (rest ++ more) rest, hbyte]
        by_cases hopen : (cb.text s (c :: rest)).2 = rest.length + 1
        · rw [if_pos hopen]
          have hgoes := htext.goes more hopen
          rw [List.cons_append, List.length_cons] at hgoes
          refine ⟨List.cons_ne_nil c rest, hopen, ?_, ?_⟩
          · have hall := pushLoop_skip cb rest [] 0 ⟨.normal, []⟩ (cb.text s (c :: rest)).1 none
            rw [List.append_nil] at hall
            rw [pushLoop_text hbyte heaten, hopen]
            exact hall
          · have heaten' : (cb.text s (c :: (rest ++ more))).2 ≠ 0 := by omega
            have hlength : (cb.text s (c :: (rest ++ more))).2 - 1 =
                rest.length + ((cb.text s (c :: (rest ++ more))).2 - (rest.length + 1)) := by omega
            rw [List.cons_append, pushLoop_text hall heaten', hlength, pushLoop_skip]
            rfl
        · rw [if_neg hopen]
          have hle := htext.eaten s (c :: rest)
          rw [List.length_cons] at hle
          have hlt : (cb.text s (c :: rest)).2 < (c :: rest).length := by
            rw [List.length_cons]
            omega
          have hstops : cb.text s (c :: (rest ++ more)) = cb.text s (c :: rest) := htext.stops more hlt
          rw [List.cons_append, pushLoop_text hbyte heaten,
            pushLoop_text hall (by rw [hstops]; exact heaten), hstops]
          exact ih _ _ _ none h

/-- What the callbacks keep, they keep up to an open run. -/
theorem cutLoop_self {R : σ → σ → Prop} (hcb : cb.Related cb R) {bytes : List UInt8} {skip : ℕ}
    {p : Parser} {s : σ} {frag : Option (List UInt8)} (h : R s s) {t : σ} {run : List UInt8}
    (hcut : cutLoop cb bytes skip p s frag = .text t run) : R t t := by
  induction bytes generalizing skip p s frag with
  | nil =>
    unfold cutLoop at hcut
    split_ifs at hcut
    cases frag <;> contradiction
  | cons c rest ih =>
    cases skip with
    | succ skip => exact ih h hcut
    | zero =>
      have hstep := pushByte_related hcb h p frag c rest
      unfold cutLoop at hcut
      cases hbyte : pushByte cb p s frag c rest with
      | some next =>
        rw [hbyte] at hcut hstep
        rcases hstep with ⟨-, -, hnext⟩
        exact ih hnext hcut
      | none =>
        rw [hbyte] at hcut
        dsimp only at hcut
        split_ifs at hcut with hlost hopen
        · cases hcut
          exact h
        · exact ih (hcb.text (c :: rest) h) hcut

end Parser

end Jterm.Vterm
