import Mathlib.Data.List.Basic

/-!
Runs of a transition system: a system that is fed a list of events is a fold of
its step function. An invariant is proved once for a step and holds along the run;
`AllSteps` carries a condition on every step of the run, read in the state the
step starts from.
-/
namespace Jterm.Runs

section Events
variable {σ ε : Type*} (step : σ → ε → σ)

/-- Feed the events to the system one after the other. -/
abbrev run (s : σ) (es : List ε) : σ := es.foldl step s

theorem run_append (s : σ) (es fs : List ε) :
    run step s (es ++ fs) = run step (run step s es) fs := List.foldl_append

/-- Every step of the run meets `ok` in the state it starts from. -/
def AllSteps (ok : σ → ε → Prop) : σ → List ε → Prop
  | _, [] => True
  | s, e :: es => ok s e ∧ AllSteps ok (step s e) es

/-- Some step of the run meets `p` in the state it starts from. -/
def SomeStep (p : σ → ε → Prop) : σ → List ε → Prop
  | _, [] => False
  | s, e :: es => p s e ∨ SomeStep p (step s e) es

@[simp] theorem allSteps_nil (ok : σ → ε → Prop) (s : σ) : AllSteps step ok s [] :=
  trivial

@[simp] theorem allSteps_cons (ok : σ → ε → Prop) (s : σ) (e : ε) (es : List ε) :
    AllSteps step ok s (e :: es) ↔ ok s e ∧ AllSteps step ok (step s e) es := Iff.rfl

instance decidableAllSteps (ok : σ → ε → Prop) [∀ s e, Decidable (ok s e)] :
    ∀ s es, Decidable (AllSteps step ok s es)
  | _, [] => .isTrue trivial
  | s, e :: es =>
    have := decidableAllSteps ok (step s e) es
    inferInstanceAs (Decidable (ok s e ∧ AllSteps step ok (step s e) es))

instance decidableSomeStep (p : σ → ε → Prop) [∀ s e, Decidable (p s e)] :
    ∀ s es, Decidable (SomeStep step p s es)
  | _, [] => .isFalse id
  | s, e :: es =>
    have := decidableSomeStep p (step s e) es
    inferInstanceAs (Decidable (p s e ∨ SomeStep step p (step s e) es))

theorem allSteps_append (ok : σ → ε → Prop) (s : σ) (es fs : List ε) :
    AllSteps step ok s (es ++ fs) ↔
      AllSteps step ok s es ∧ AllSteps step ok (run step s es) fs := by
  induction es generalizing s with
  | nil => simp
  | cons e es ih => simp [ih (step s e), and_assoc]

theorem allSteps_mono {ok ok' : σ → ε → Prop} (h : ∀ s e, ok s e → ok' s e)
    (s : σ) (es : List ε) (hall : AllSteps step ok s es) : AllSteps step ok' s es := by
  induction es generalizing s with
  | nil => trivial
  | cons e es ih => exact ⟨h s e hall.1, ih (step s e) hall.2⟩

/-- Two systems fed the same events, whose related states take related steps and agree on
the two conditions, meet them along the same runs. -/
theorem allSteps_iff_of_related {τ : Type*} {stepT : τ → ε → τ} (R : σ → τ → Prop)
    {ok : σ → ε → Prop} {okT : τ → ε → Prop}
    (hstep : ∀ s t e, R s t → R (step s e) (stepT t e))
    (hok : ∀ s t e, R s t → (ok s e ↔ okT t e)) {s : σ} {t : τ} (es : List ε) (hst : R s t) :
    AllSteps step ok s es ↔ AllSteps stepT okT t es := by
  induction es generalizing s t with
  | nil => exact Iff.rfl
  | cons e es ih => exact and_congr (hok s t e hst) (ih (hstep s t e hst))

/-- A step that an invariant rules out is none of the run's. -/
theorem not_someStep (Inv : σ → Prop) {p : σ → ε → Prop} (hstep : ∀ s e, Inv s → Inv (step s e))
    (hnot : ∀ s e, Inv s → ¬ p s e) {s : σ} (es : List ε) (hs : Inv s) :
    ¬ SomeStep step p s es := by
  induction es generalizing s with
  | nil => exact id
  | cons e es ih =>
    rintro (hfirst | hrest)
    · exact hnot s e hs hfirst
    · exact ih (hstep s e hs) hrest

/-- What every step preserves, every run preserves. -/
theorem invariant_of_step (Inv : σ → Prop) (hstep : ∀ s e, Inv s → Inv (step s e)) {s : σ}
    (es : List ε) (hs : Inv s) : Inv (run step s es) := by
  induction es generalizing s with
  | nil => exact hs
  | cons e es ih => exact ih (hstep s e hs)

/-- What one admissible step preserves, an admissible run preserves. -/
theorem invariant_run {Inv : σ → Prop} {ok : σ → ε → Prop}
    (hstep : ∀ s e, Inv s → ok s e → Inv (step s e)) {s : σ} {es : List ε}
    (hs : Inv s) (hall : AllSteps step ok s es) : Inv (run step s es) := by
  induction es generalizing s with
  | nil => exact hs
  | cons e es ih => exact ih (hstep s e hs hall.1) hall.2

/-- The invariant holds in every state the run passes through. -/
theorem invariant_along {Inv : σ → Prop} {ok : σ → ε → Prop}
    (hstep : ∀ s e, Inv s → ok s e → Inv (step s e)) {s : σ} {es pre : List ε}
    (hs : Inv s) (hall : AllSteps step ok s es) (hpre : pre <+: es) :
    Inv (run step s pre) := by
  obtain ⟨rest, rfl⟩ := hpre
  exact invariant_run step hstep hs ((allSteps_append step ok s pre rest).mp hall).1

/-- Where a step keeps a property exactly when it meets the condition, a run has the
property in all its states exactly when all its steps meet the condition. -/
theorem forall_prefix_iff {Good : σ → Prop} {ok : σ → ε → Prop} {Inv : σ → Prop}
    (hinv : ∀ s e, Inv s → Inv (step s e))
    (hstep : ∀ s e, Inv s → Good s → (Good (step s e) ↔ ok s e)) {s : σ} {es : List ε}
    (hs : Inv s) (hgood : Good s) :
    (∀ pre, pre <+: es → Good (run step s pre)) ↔ AllSteps step ok s es := by
  induction es generalizing s with
  | nil =>
    refine ⟨fun _ => trivial, fun _ pre hpre => ?_⟩
    rw [List.prefix_nil.mp hpre]
    exact hgood
  | cons e es ih =>
    constructor
    · intro h
      have hnext : Good (step s e) := h [e] (by simp)
      refine ⟨(hstep s e hs hgood).mp hnext, (ih (hinv s e hs) hnext).mp ?_⟩
      intro pre hpre
      exact h (e :: pre) (List.cons_prefix_cons.mpr ⟨rfl, hpre⟩)
    · rintro ⟨hok, hrest⟩ pre hpre
      cases pre with
      | nil => exact hgood
      | cons f pre =>
        obtain ⟨rfl, htail⟩ := List.cons_prefix_cons.mp hpre
        have hnext : Good (step s f) := (hstep s f hs hgood).mpr hok
        exact (ih (hinv s f hs) hnext).mpr hrest pre htail
end Events

/-- A step that may fail, run over a list: where every step succeeds and keeps the invariant,
the whole run does. -/
theorem foldlM_some {σ ε : Type*} {step : σ → ε → Option σ} {Inv : σ → Prop} {s : σ} {es : List ε}
    (hstep : ∀ s, ∀ e ∈ es, Inv s → ∃ t, step s e = some t ∧ Inv t) (hs : Inv s) :
    ∃ t, es.foldlM step s = some t ∧ Inv t := by
  induction es generalizing s with
  | nil => exact ⟨s, rfl, hs⟩
  | cons e es ih =>
    obtain ⟨next, hnext, hinv⟩ := hstep s e List.mem_cons_self hs
    obtain ⟨t, ht, htinv⟩ := ih (fun s f hf => hstep s f (List.mem_cons_of_mem e hf)) hinv
    refine ⟨t, ?_, htinv⟩
    rw [List.foldlM_cons, hnext]
    exact ht

/-- What every step that succeeds keeps, a run that succeeds keeps. -/
theorem foldlM_keeps {σ ε : Type*} {step : σ → ε → Option σ} {I : σ → Prop} {s t : σ} {es : List ε}
    (hstep : ∀ s, ∀ e ∈ es, ∀ t, I s → step s e = some t → I t) (hs : I s)
    (h : es.foldlM step s = some t) : I t := by
  induction es generalizing s with
  | nil =>
    cases h
    exact hs
  | cons e es ih =>
    rw [List.foldlM_cons] at h
    obtain ⟨next, hnext, hrest⟩ := Option.bind_eq_some_iff.mp h
    exact ih (fun s f hf => hstep s f (List.mem_cons_of_mem e hf))
      (hstep s e List.mem_cons_self next hs hnext) hrest

end Jterm.Runs
