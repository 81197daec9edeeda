import Jterm.Vterm.Pen
import Mathlib.Tactic.SplitIfs

/-!
What vterm_state_setpen reads. The loop goes on by strides of its own: over the operands of
38 and 48, which lookup_colour counts, and over sub-arguments, as long as the flag says that
one more follows. Both can lead behind the last argument.
-/
namespace Jterm.Vterm

/-- 38 and 48, whose colour is in the arguments behind them. -/
def SelectsColour (arg : ℕ) : Prop := csiArg arg = 38 ∨ csiArg arg = 48

instance (arg : ℕ) : Decidable (SelectsColour arg) :=
  inferInstanceAs (Decidable (csiArg arg = 38 ∨ csiArg arg = 48))

/-- What lookup_colour returns. -/
def lookupUsed (palette : ℕ) (argcount : ℤ) : ℤ :=
  if palette = 2 then if argcount < 3 then argcount else 3
  else if palette = 5 then if argcount ≠ 0 then 1 else 0
  else 0

/-- The elements of its array lookup_colour reads. -/
def lookupReads (palette : ℕ) (argcount : ℤ) : List ℕ :=
  if palette = 2 then if argcount < 3 then [] else [0, 1, 2]
  else if palette = 5 then if argcount ≠ 0 then [0] else []
  else []

section Reads
variable (memory : List ℕ) (argcount : ℕ)

/-- The palette of a selector, and how many arguments are left for it. -/
def palette (argi : ℕ) : ℕ := csiArg (memory.getD (argi + 1) 0)

def left (argi : ℕ) : ℤ := argcount - argi - 2

/-- Where the loop over sub-arguments starts in a pass. -/
def lastOperand (argi : ℕ) : ℕ :=
  if SelectsColour (memory.getD argi 0) then
    (argi + (1 + lookupUsed (palette memory argi) (left argcount argi))).toNat
  else argi

/-- Where the next pass starts. -/
def nextArgi (argi : ℕ) : ℕ :=
  lastOperand memory argcount argi + skipMore (memory.drop (lastOperand memory argcount argi))

/-- The indices of `args` that a pass reads. -/
def passReads (argi : ℕ) : List ℕ :=
  argi ::
    (if SelectsColour (memory.getD argi 0) then
      (argi + 1) :: (lookupReads (palette memory argi) (left argcount argi)).map (argi + 2 + ·)
    else []) ++
    List.range' (lastOperand memory argcount argi)
      (skipMore (memory.drop (lastOperand memory argcount argi)))

/-- The indices of `args` that the passes from `argi` on read. -/
def setpenReads : ℕ → ℕ → List ℕ
  | 0, _ => []
  | passes + 1, argi =>
    if argcount ≤ argi then []
    else passReads memory argcount argi ++ setpenReads passes (nextArgi memory argcount argi)

/-- The loop leaves by its own condition within so many passes. -/
def SetpenEnds : ℕ → ℕ → Prop
  | 0, argi => argcount ≤ argi
  | passes + 1, argi => argcount ≤ argi ∨ SetpenEnds passes (nextArgi memory argcount argi)

end Reads

theorem lookupColour_used (palette : ℕ) (memory : List ℕ) (argcount : ℤ) (col : VTermColor) :
    (lookupColour palette memory argcount col).1 = lookupUsed palette argcount := by
  unfold lookupColour lookupUsed
  split_ifs <;> rfl

/-- One pass: what it does to the pen, by the argument and what lookup_colour finds. -/
def passPens (memory : List ℕ) (argcount argi : ℕ) (p : Pens) : Pens :=
  let arg := csiArg (memory.getD argi 0)
  if arg = 38 then
    { p with fgAnsi := -1 }.put (.foreground (lookupColour (palette memory argi)
      (memory.drop (argi + 2)) (left argcount argi) p.pen.fg).2)
  else if arg = 48 then
    p.put (.background (lookupColour (palette memory argi) (memory.drop (argi + 2))
      (left argcount argi) p.pen.bg).2)
  else p.setpenArg arg

theorem setpenLoop_succ (memory : List ℕ) (argcount passes argi : ℕ) (p : Pens) :
    setpenLoop memory argcount (passes + 1) argi p =
      if argcount ≤ argi then p
      else setpenLoop memory argcount passes (nextArgi memory argcount argi)
        (passPens memory argcount argi p) := by
  rw [setpenLoop]
  by_cases hend : argcount ≤ argi
  · rw [if_pos hend, if_pos hend]
  · rw [if_neg hend, if_neg hend]
    unfold nextArgi lastOperand passPens
    by_cases hfg : csiArg (memory.getD argi 0) = 38
    · have hselects : SelectsColour (memory.getD argi 0) := Or.inl hfg
      simp only [if_pos hfg, if_pos hselects,
        ← lookupColour_used _ (memory.drop (argi + 2)) _ p.pen.fg]
      rfl
    · by_cases hbg : csiArg (memory.getD argi 0) = 48
      · have hselects : SelectsColour (memory.getD argi 0) := Or.inr hbg
        simp only [if_neg hfg, if_pos hbg, if_pos hselects,
          ← lookupColour_used _ (memory.drop (argi + 2)) _ p.pen.bg]
        rfl
      · have hplain : ¬ SelectsColour (memory.getD argi 0) := not_or.mpr ⟨hfg, hbg⟩
        simp only [if_neg hfg, if_neg hbg, if_neg hplain]

/-- lookup_colour takes what it is given at most; without operands it takes one back. -/
theorem lookupUsed_bounds (palette : ℕ) {argcount : ℤ} (h : -1 ≤ argcount) :
    -1 ≤ lookupUsed palette argcount ∧ (0 ≤ argcount →
      0 ≤ lookupUsed palette argcount ∧ lookupUsed palette argcount ≤ argcount) := by
  unfold lookupUsed
  split_ifs <;> omega

theorem skipMore_pos (memory : List ℕ) : 1 ≤ skipMore memory := by
  cases memory with
  | nil => exact Nat.le_refl 1
  | cons a memory =>
    unfold skipMore
    split_ifs <;> omega

theorem le_lastOperand (memory : List ℕ) {argcount argi : ℕ} (h : argi < argcount) :
    argi ≤ lastOperand memory argcount argi := by
  unfold lastOperand
  split_ifs
  · have hused := (lookupUsed_bounds (palette memory argi)
      (show -1 ≤ left argcount argi by unfold left; omega)).1
    omega
  · exact Nat.le_refl argi

/-- Every pass moves `argi` on. -/
theorem lt_nextArgi (memory : List ℕ) {argcount argi : ℕ} (h : argi < argcount) :
    argi < nextArgi memory argcount argi := by
  have hoperand := le_lastOperand memory h
  have hskip := skipMore_pos (memory.drop (lastOperand memory argcount argi))
  unfold nextArgi
  omega

/-- As many passes as there are arguments are enough, whatever lies behind them. -/
theorem setpenEnds (memory : List ℕ) {argcount passes argi : ℕ} (h : argcount ≤ argi + passes) :
    SetpenEnds memory argcount passes argi := by
  induction passes generalizing argi with
  | zero => exact h
  | succ passes ih =>
    by_cases hend : argcount ≤ argi
    · exact Or.inl hend
    · have hnext := lt_nextArgi memory (Nat.lt_of_not_le hend)
      exact Or.inr (ih (by omega))

/-! The loop looks at nothing but what it reads. -/

theorem skipMore_drop (memory : List ℕ) (i : ℕ) :
    skipMore (memory.drop i) =
      if csiArgHasMore (memory.getD i 0) then skipMore (memory.drop (i + 1)) + 1 else 1 := by
  rcases Nat.lt_or_ge i memory.length with hlt | hge
  · rw [List.drop_eq_getElem_cons hlt, skipMore, List.getD_eq_getElem _ _ hlt]
  · rw [List.drop_eq_nil_of_le hge, List.getD_eq_default _ _ hge]
    rfl

/-- Arrays that agree where one of them is read are skipped through alike. -/
theorem skipMore_congr {memory memory' : List ℕ} (n i : ℕ) (hn : skipMore (memory.drop i) = n)
    (hsame : ∀ j ∈ List.range' i n, memory'.getD j 0 = memory.getD j 0) :
    skipMore (memory'.drop i) = n := by
  induction n generalizing i with
  | zero =>
    have hpos := skipMore_pos (memory.drop i)
    omega
  | succ n ih =>
    have hhead : memory'.getD i 0 = memory.getD i 0 := hsame i (by simp [List.mem_range'_1])
    rw [skipMore_drop] at hn ⊢
    rw [hhead]
    by_cases hmore : csiArgHasMore (memory.getD i 0) = true
    · rw [if_pos hmore] at hn ⊢
      have hrest := ih (i + 1) (by omega) (fun j hj => hsame j (by
        rw [List.mem_range'_1] at hj ⊢
        omega))
      rw [hrest]
    · rw [if_neg hmore] at hn ⊢
      exact hn

theorem lookupColour_congr (palette : ℕ) {memory memory' : List ℕ} (argcount : ℤ) (col : VTermColor)
    (hsame : ∀ i ∈ lookupReads palette argcount, memory'.getD i 0 = memory.getD i 0) :
    lookupColour palette memory' argcount col = lookupColour palette memory argcount col := by
  unfold lookupReads at hsame
  unfold lookupColour
  by_cases hrgb : palette = 2
  · simp only [if_pos hrgb] at hsame ⊢
    by_cases hfew : argcount < 3
    · rw [if_pos hfew, if_pos hfew]
    · rw [if_neg hfew] at hsame
      simp only [if_neg hfew, hsame 0 (by simp), hsame 1 (by simp), hsame 2 (by simp)]
  · simp only [if_neg hrgb] at hsame ⊢
    by_cases hindexed : palette = 5
    · simp only [if_pos hindexed] at hsame ⊢
      by_cases hgiven : argcount ≠ 0
      · rw [if_pos hgiven] at hsame
        simp only [hsame 0 (by simp)]
      · simp only [if_neg hgiven]
    · simp only [if_neg hindexed]

/-- Where two arrays agree on what a pass reads, the pass does the same with both. -/
theorem pass_congr {memory memory' : List ℕ} {argcount argi : ℕ} (p : Pens)
    (hsame : ∀ i ∈ passReads memory argcount argi, memory'.getD i 0 = memory.getD i 0) :
    passPens memory' argcount argi p = passPens memory argcount argi p ∧
      nextArgi memory' argcount argi = nextArgi memory argcount argi := by
  have harg : memory'.getD argi 0 = memory.getD argi 0 := hsame argi (by simp [passReads])
  have hskip : ∀ j ∈ List.range' (lastOperand memory argcount argi)
      (skipMore (memory.drop (lastOperand memory argcount argi))),
        memory'.getD j 0 = memory.getD j 0 := fun j hj =>
    hsame j (List.mem_append_right _ hj)
  by_cases hselects : SelectsColour (memory.getD argi 0)
  · have hpalette : palette memory' argi = palette memory argi := by
      unfold palette
      rw [hsame (argi + 1) (by
        unfold passReads
        rw [if_pos hselects]
        exact List.mem_append_left _ (List.mem_cons_of_mem _ List.mem_cons_self))]
    have hoperands : ∀ i ∈ lookupReads (palette memory argi) (left argcount argi),
        (memory'.drop (argi + 2)).getD i 0 = (memory.drop (argi + 2)).getD i 0 := by
      intro i hi
      have hread := hsame (argi + 2 + i) (by
        unfold passReads
        rw [if_pos hselects]
        apply List.mem_append_left
        refine List.mem_cons_of_mem _ (List.mem_cons_of_mem _ ?_)
        exact List.mem_map_of_mem hi)
      simpa [List.getD_eq_getElem?_getD] using hread
    have hlookup := fun col => lookupColour_congr _ _ col hoperands
    have hoperand : lastOperand memory' argcount argi = lastOperand memory argcount argi := by
      unfold lastOperand
      rw [harg, hpalette]
    refine ⟨?_, ?_⟩
    · unfold passPens
      rw [harg, hpalette]
      simp only [hlookup]
    · unfold nextArgi
      rw [hoperand, skipMore_congr _ _ rfl hskip]
  · have hoperand : lastOperand memory' argcount argi = lastOperand memory argcount argi := by
      unfold lastOperand
      rw [harg, if_neg hselects, if_neg hselects]
    obtain ⟨hfg, hbg⟩ := not_or.mp hselects
    refine ⟨?_, ?_⟩
    · unfold passPens
      rw [harg]
      simp only [if_neg hfg, if_neg hbg]
    · unfold nextArgi
      rw [hoperand, skipMore_congr _ _ rfl hskip]

theorem setpenLoop_congr {memory memory' : List ℕ} {argcount passes argi : ℕ} (p : Pens)
    (hsame : ∀ i ∈ setpenReads memory argcount passes argi,
      memory'.getD i 0 = memory.getD i 0) :
    setpenLoop memory' argcount passes argi p = setpenLoop memory argcount passes argi p := by
  induction passes generalizing argi p with
  | zero => rfl
  | succ passes ih =>
    rw [setpenLoop_succ, setpenLoop_succ]
    by_cases hend : argcount ≤ argi
    · rw [if_pos hend, if_pos hend]
    · rw [setpenReads, if_neg hend] at hsame
      have hpass : ∀ i ∈ passReads memory argcount argi, memory'.getD i 0 = memory.getD i 0 :=
        fun i hi => hsame i (List.mem_append_left _ hi)
      obtain ⟨hpens, hnext⟩ := pass_congr p hpass
      rw [if_neg hend, if_neg hend, hpens, hnext]
      exact ih _ (fun i hi => hsame i (List.mem_append_right _ hi))

/-! Argument lists that are complete for setpen. -/

/-- Behind the first argument that is not flagged. -/
def groupRest : List ℕ → Option (List ℕ)
  | [] => none
  | a :: rest => if csiArgHasMore a then groupRest rest else some rest

/-- The first selection of a list and what follows it: one argument, or 38 or 48 with a palette
and the operands the palette takes, and the sub-arguments behind them. -/
inductive Selection : List ℕ → List ℕ → Prop
  | plain {arg : ℕ} {rest after : List ℕ} : ¬ SelectsColour arg →
      groupRest (arg :: rest) = some after → Selection (arg :: rest) after
  | colour {arg palette : ℕ} {operands after : List ℕ} : SelectsColour arg →
      groupRest ((palette :: operands).drop
        (lookupUsed (csiArg palette) operands.length).toNat) = some after →
      Selection (arg :: palette :: operands) after

/-- The list divides into selections. -/
inductive SgrComplete : List ℕ → Prop
  | nil : SgrComplete []
  | cons {args after : List ℕ} : Selection args after → SgrComplete after → SgrComplete args

theorem groupRest_some {args after : List ℕ} (stack : List ℕ) (h : groupRest args = some after) :
    skipMore (args ++ stack) ≤ args.length ∧ after = args.drop (skipMore (args ++ stack)) := by
  induction args with
  | nil => cases h
  | cons a rest ih =>
    unfold groupRest at h
    rw [List.cons_append, skipMore]
    by_cases hmore : csiArgHasMore a = true
    · rw [if_pos hmore] at h ⊢
      obtain ⟨hle, hafter⟩ := ih h
      exact ⟨Nat.succ_le_succ hle, hafter⟩
    · rw [if_neg hmore] at h ⊢
      cases h
      exact ⟨Nat.le_add_left 1 _, rfl⟩

theorem groupRest_none {args : List ℕ} (stack : List ℕ) (h : groupRest args = none) :
    args.length < skipMore (args ++ stack) := by
  induction args with
  | nil => exact skipMore_pos stack
  | cons a rest ih =>
    unfold groupRest at h
    rw [List.cons_append, skipMore]
    by_cases hmore : csiArgHasMore a = true
    · rw [if_pos hmore] at h ⊢
      exact Nat.succ_lt_succ (ih h)
    · rw [if_neg hmore] at h
      cases h

/-- The loop over sub-arguments stays inside the arguments if it stops in one of them. -/
theorem groupRest_drop_iff (args stack : List ℕ) {i : ℕ} (hi : i < args.length) (after : List ℕ) :
    groupRest (args.drop i) = some after ↔
      (∀ j ∈ List.range' i (skipMore ((args ++ stack).drop i)), j < args.length) ∧
        after = args.drop (i + skipMore ((args ++ stack).drop i)) := by
  have hdrop : (args ++ stack).drop i = args.drop i ++ stack :=
    List.drop_append_of_le_length (Nat.le_of_lt hi)
  have hpos := skipMore_pos (args.drop i ++ stack)
  rw [hdrop]
  cases hgroup : groupRest (args.drop i) with
  | none =>
    have hlong := groupRest_none stack hgroup
    rw [List.length_drop] at hlong
    refine iff_of_false nofun fun hinside => ?_
    have hlast := hinside.1 (i + skipMore (args.drop i ++ stack) - 1)
      (List.mem_range'_1.mpr (by omega))
    omega
  | some found =>
    obtain ⟨hle, hfound⟩ := groupRest_some stack hgroup
    rw [List.length_drop] at hle
    rw [List.drop_drop] at hfound
    rw [Option.some.injEq, hfound]
    constructor
    · intro hafter
      refine ⟨fun j hj => ?_, hafter.symm⟩
      rw [List.mem_range'_1] at hj
      omega
    · exact fun hboth => hboth.2.symm

section Inside
variable {args stack : List ℕ} {argi : ℕ}

theorem getD_append (h : argi < args.length) : (args ++ stack).getD argi 0 = args[argi] := by
  rw [List.getD_eq_getElem?_getD, List.getElem?_append_left h, List.getElem?_eq_getElem h]
  rfl

/-- What lookup_colour reads of its operands lies inside what it is told is there. -/
theorem lookupReads_lt (palette : ℕ) {argcount : ℤ} (h : 0 ≤ argcount) :
    ∀ i ∈ lookupReads palette argcount, (i : ℤ) < argcount := by
  intro i hi
  unfold lookupReads at hi
  split_ifs at hi <;> simp at hi <;> omega

/-- A pass over one argument. -/
theorem plainPass_iff (h : argi < args.length)
    (hplain : ¬ SelectsColour ((args ++ stack).getD argi 0)) (after : List ℕ) :
    Selection (args.drop argi) after ↔
      (∀ i ∈ passReads (args ++ stack) args.length argi, i < args.length) ∧
        after = args.drop (nextArgi (args ++ stack) args.length argi) := by
  have hoperand : lastOperand (args ++ stack) args.length argi = argi := if_neg hplain
  have hskip := groupRest_drop_iff args stack h after
  unfold passReads nextArgi
  rw [if_neg hplain, hoperand, List.singleton_append, List.forall_mem_cons, and_assoc, ← hskip]
  rw [getD_append h] at hplain
  rw [List.drop_eq_getElem_cons h]
  constructor
  · intro hselection
    refine ⟨h, ?_⟩
    generalize args.drop (argi + 1) = rest at hselection ⊢
    cases hselection with
    | plain _ hgroup => exact hgroup
    | colour hselects _ => exact absurd hselects hplain
  · exact fun hboth => .plain hplain hboth.2

/-- A pass over 38 or 48 with something behind it. -/
theorem colourPass_iff (h : argi + 1 < args.length)
    (hselects : SelectsColour ((args ++ stack).getD argi 0)) (after : List ℕ) :
    Selection (args.drop argi) after ↔
      (∀ i ∈ passReads (args ++ stack) args.length argi, i < args.length) ∧
        after = args.drop (nextArgi (args ++ stack) args.length argi) := by
  have hlength : (args.drop (argi + 2)).length = args.length - (argi + 2) := List.length_drop
  have hleft : left args.length argi = (args.drop (argi + 2)).length := by
    unfold left
    omega
  have hpalette : palette (args ++ stack) argi = csiArg args[argi + 1] := by
    unfold palette
    rw [getD_append h]
  have hused := (lookupUsed_bounds (csiArg args[argi + 1])
    (show -1 ≤ ((args.drop (argi + 2)).length : ℤ) by omega)).2 (by omega)
  have hoperand : lastOperand (args ++ stack) args.length argi = argi + 1 +
      (lookupUsed (csiArg args[argi + 1]) (args.drop (argi + 2)).length).toNat := by
    unfold lastOperand
    rw [if_pos hselects, hleft, hpalette]
    omega
  have hskip := groupRest_drop_iff args stack
    (show lastOperand (args ++ stack) args.length argi < args.length by omega) after
  have hgroup : (args[argi + 1] :: args.drop (argi + 2)).drop
      (lookupUsed (csiArg args[argi + 1]) (args.drop (argi + 2)).length).toNat =
        args.drop (lastOperand (args ++ stack) args.length argi) := by
    rw [hoperand, ← List.drop_eq_getElem_cons h, List.drop_drop]
  have hreads : ∀ i ∈ (lookupReads (palette (args ++ stack) argi)
      (left args.length argi)).map (argi + 2 + ·), i < args.length := by
    intro i hi
    obtain ⟨k, hk, rfl⟩ := List.mem_map.mp hi
    have hinside := lookupReads_lt _ (by omega) k hk
    omega
  have hpass : (∀ i ∈ passReads (args ++ stack) args.length argi, i < args.length) ↔
      ∀ i ∈ List.range' (lastOperand (args ++ stack) args.length argi) (skipMore
        ((args ++ stack).drop (lastOperand (args ++ stack) args.length argi))),
          i < args.length := by
    unfold passReads
    rw [if_pos hselects, List.forall_mem_append, List.forall_mem_cons, List.forall_mem_cons]
    exact and_iff_right ⟨by omega, h, hreads⟩
  unfold nextArgi
  rw [hpass, ← hskip, ← hgroup, List.drop_eq_getElem_cons (show argi < args.length by omega),
    List.drop_eq_getElem_cons h]
  rw [getD_append (by omega)] at hselects
  constructor
  · intro hselection
    cases hselection with
    | plain hplain _ => exact absurd hselects hplain
    | colour _ hgroup => exact hgroup
  · exact .colour hselects

/-- A pass reads inside the arguments if they begin with a whole selection, and then the next
pass starts behind it. -/
theorem pass_iff (h : argi < args.length) (after : List ℕ) :
    Selection (args.drop argi) after ↔
      (∀ i ∈ passReads (args ++ stack) args.length argi, i < args.length) ∧
        after = args.drop (nextArgi (args ++ stack) args.length argi) := by
  by_cases hselects : SelectsColour ((args ++ stack).getD argi 0)
  · by_cases hmore : argi + 1 < args.length
    · exact colourPass_iff hmore hselects after
    · refine iff_of_false (fun hselection => ?_) (fun hinside => ?_)
      · rw [getD_append h] at hselects
        rw [List.drop_eq_getElem_cons h, List.drop_eq_nil_of_le (by omega)] at hselection
        cases hselection with
        | plain hplain _ => exact hplain hselects
      · refine hmore (hinside.1 (argi + 1) ?_)
        unfold passReads
        rw [if_pos hselects]
        exact List.mem_append_left _ (List.mem_cons_of_mem _ List.mem_cons_self)
  · exact plainPass_iff h hselects after

theorem sgrComplete_iff (args : List ℕ) :
    SgrComplete args ↔ args = [] ∨ ∃ after, Selection args after ∧ SgrComplete after := by
  constructor
  · intro hcomplete
    cases hcomplete with
    | nil => exact Or.inl rfl
    | cons hselection hafter => exact Or.inr ⟨_, hselection, hafter⟩
  · rintro (rfl | ⟨after, hselection, hafter⟩)
    · exact .nil
    · exact .cons hselection hafter

/-- The loop reads inside the arguments exactly when they are complete from there on. -/
theorem setpenReads_inside_iff (args stack : List ℕ) {passes argi : ℕ}
    (h : args.length ≤ argi + passes) :
    (∀ i ∈ setpenReads (args ++ stack) args.length passes argi, i < args.length) ↔
      SgrComplete (args.drop argi) := by
  induction passes generalizing argi with
  | zero =>
    rw [List.drop_eq_nil_of_le (show args.length ≤ argi from h)]
    exact iff_of_true nofun .nil
  | succ passes ih =>
    rw [setpenReads]
    by_cases hend : args.length ≤ argi
    · rw [if_pos hend, List.drop_eq_nil_of_le hend]
      exact iff_of_true nofun .nil
    · have hlt : argi < args.length := Nat.lt_of_not_le hend
      have hnext := lt_nextArgi (args ++ stack) hlt
      have hne : args.drop argi ≠ [] := by
        rw [List.drop_eq_getElem_cons hlt]
        exact List.cons_ne_nil _ _
      have hfewer : args.length ≤ nextArgi (args ++ stack) args.length argi + passes := by omega
      have hpass : ∀ after, Selection (args.drop argi) after ↔
          (∀ i ∈ passReads (args ++ stack) args.length argi, i < args.length) ∧
            after = args.drop (nextArgi (args ++ stack) args.length argi) := pass_iff hlt
      rw [if_neg hend, List.forall_mem_append, sgrComplete_iff (args.drop argi), or_iff_right hne]
      refine (and_congr_right fun _ => ih hfewer).trans ?_
      constructor
      · exact fun hboth => ⟨_, (hpass _).mpr ⟨hboth.1, rfl⟩, hboth.2⟩
      · rintro ⟨after, hselection, hafter⟩
        obtain ⟨hinside, rfl⟩ := (hpass after).mp hselection
        exact ⟨hinside, hafter⟩

end Inside

/-- setpen keeps to the arguments it is given: whatever follows them on the stack, it reads none of
it, ends, and does what the arguments and the pens before say. -/
structure KeepsToArgs (args : List ℕ) : Prop where
  inside : ∀ stack, ∀ i ∈ setpenReads (args ++ stack) args.length args.length 0, i < args.length
  ends : ∀ stack, SetpenEnds (args ++ stack) args.length args.length 0
  pens : ∀ stack stack' (p : Pens), p.setpen args stack' = p.setpen args stack

/-- setpen keeps to its arguments exactly when they divide into selections. -/
theorem keepsToArgs_iff (args : List ℕ) : KeepsToArgs args ↔ SgrComplete args := by
  have hinside : ∀ stack, (∀ i ∈ setpenReads (args ++ stack) args.length args.length 0,
      i < args.length) ↔ SgrComplete args :=
    fun stack => setpenReads_inside_iff args stack (Nat.le_add_left _ 0)
  constructor
  · exact fun h => (hinside []).mp (h.inside [])
  · intro hcomplete
    refine ⟨fun stack => (hinside stack).mpr hcomplete, fun stack => setpenEnds _ (by omega), ?_⟩
    intro stack stack' p
    refine setpenLoop_congr p fun i hi => ?_
    have hlt : i < args.length := (hinside stack).mpr hcomplete i hi
    rw [getD_append hlt, getD_append hlt]

end Jterm.Vterm
