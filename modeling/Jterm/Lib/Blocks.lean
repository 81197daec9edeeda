import Mathlib.Data.List.Basic

/-!
A transformation of blocks that carries a state from block to block and may fail, such as
a block cipher in a chaining mode, applied to the blocks of a list one after the other.
Two transformations with related states undo each other on any number of blocks, and a
run over some blocks is cut into runs over the first and over the others.
-/
namespace Jterm.Blocks

variable {σ τ β : Type*}

/-- `f` on `k` blocks of `n`; where it fails, the state it leaves. -/
def inBlocks (f : σ → List β → Except σ (List β × σ)) (n : ℕ) :
    ℕ → σ → List β → Except σ (List β × σ)
  | 0, st, _ => .ok ([], st)
  | k + 1, st, l =>
    (f st (l.take n)).bind fun first =>
      (inBlocks f n k first.2 (l.drop n)).map fun others => (first.1 ++ others.1, others.2)

/-- `g` undoes `f` on blocks of `n`, from states that `R` relates. -/
structure Undoes (f : σ → List β → Except σ (List β × σ)) (g : τ → List β → Except τ (List β × τ))
    (n : ℕ) (R : σ → τ → Prop) : Prop where
  length : ∀ {st next block out}, block.length = n → f st block = .ok (out, next) → out.length = n
  undo : ∀ {st st' next block out}, R st st' → block.length = n → f st block = .ok (out, next) →
    ∃ next', g st' out = .ok (block, next') ∧ R next next'

variable {f : σ → List β → Except σ (List β × σ)} {g : τ → List β → Except τ (List β × τ)} {n : ℕ}
  {R : σ → τ → Prop}

theorem inBlocks_zero (st : σ) (l : List β) : inBlocks f n 0 st l = .ok ([], st) := rfl

theorem inBlocks_succ (k : ℕ) (st : σ) (l : List β) :
    inBlocks f n (k + 1) st l = (f st (l.take n)).bind fun first =>
      (inBlocks f n k first.2 (l.drop n)).map fun others => (first.1 ++ others.1, others.2) := rfl

/-- What a run over one block more has done first. -/
theorem inBlocks_succ_ok {k : ℕ} {st last : σ} {l out : List β} :
    inBlocks f n (k + 1) st l = .ok (out, last) ↔
      ∃ block next rest, f st (l.take n) = .ok (block, next) ∧
        inBlocks f n k next (l.drop n) = .ok (rest, last) ∧ out = block ++ rest := by
  rw [inBlocks_succ]
  cases hfirst : f st (l.take n) with
  | error e => simp [Except.bind]
  | ok found =>
    obtain ⟨block, next⟩ := found
    cases hrest : inBlocks f n k next (l.drop n) with
    | error e =>
      simp only [Except.bind, hrest, Except.map, reduceCtorEq, Except.ok.injEq, Prod.mk.injEq,
        false_iff]
      intro h
      obtain ⟨block', next', rest, ⟨rfl, rfl⟩, hr, -⟩ := h
      rw [hrest] at hr
      cases hr
    | ok found =>
      obtain ⟨rest, last'⟩ := found
      simp only [Except.bind, hrest, Except.map, Except.ok.injEq, Prod.mk.injEq]
      constructor
      · intro h
        obtain ⟨rfl, rfl⟩ := h
        exact ⟨block, next, rest, ⟨rfl, rfl⟩, hrest, rfl⟩
      · intro h
        obtain ⟨block', next', rest', ⟨rfl, rfl⟩, hr, rfl⟩ := h
        rw [hrest] at hr
        simp only [Except.ok.injEq, Prod.mk.injEq] at hr
        exact ⟨by rw [hr.1], hr.2⟩

theorem length_take_block {k : ℕ} {l : List β} (hl : l.length = (k + 1) * n) :
    (l.take n).length = n ∧ (l.drop n).length = k * n := by
  rw [Nat.succ_mul] at hl
  rw [List.length_take, List.length_drop]
  omega

theorem length_inBlocks (hlength : ∀ {st next block out}, block.length = n →
    f st block = .ok (out, next) → out.length = n) {k : ℕ} {st last : σ} {l out : List β}
    (hl : l.length = k * n) (h : inBlocks f n k st l = .ok (out, last)) : out.length = k * n := by
  induction k generalizing st l out with
  | zero =>
    simp only [inBlocks_zero, Except.ok.injEq, Prod.mk.injEq] at h
    simp [← h.1]
  | succ k ih =>
    obtain ⟨block, next, rest, hblock, hrest, rfl⟩ := inBlocks_succ_ok.mp h
    obtain ⟨htake, hdrop⟩ := length_take_block hl
    have hfirst := hlength htake hblock
    have hothers := ih hdrop hrest
    rw [List.length_append, hfirst, hothers, Nat.succ_mul, Nat.add_comm]

/-- The run over `j + k` blocks is the run over `j` of them and then over `k`. -/
theorem inBlocks_add {j k : ℕ} {st last : σ} {l out : List β}
    (hlength : ∀ {st next block out}, block.length = n → f st block = .ok (out, next) →
      out.length = n) (hl : l.length = (j + k) * n)
    (h : inBlocks f n (j + k) st l = .ok (out, last)) :
    ∃ mid, inBlocks f n j st (l.take (j * n)) = .ok (out.take (j * n), mid) ∧
      inBlocks f n k mid (l.drop (j * n)) = .ok (out.drop (j * n), last) := by
  induction j generalizing st l out with
  | zero =>
    rw [Nat.zero_add] at h
    exact ⟨st, by simp [inBlocks], by simpa using h⟩
  | succ j ih =>
    rw [Nat.succ_add] at h hl
    obtain ⟨block, next, rest, hblock, hrest, rfl⟩ := inBlocks_succ_ok.mp h
    obtain ⟨htake, hdrop⟩ := length_take_block hl
    obtain ⟨mid, hfront, hback⟩ := ih hdrop hrest
    have hlen : block.length = n := hlength htake hblock
    have hcut : (j + 1) * n = n + j * n := by rw [Nat.succ_mul, Nat.add_comm]
    refine ⟨mid, ?_, ?_⟩
    · rw [hcut]
      apply inBlocks_succ_ok.mpr
      refine ⟨block, next, rest.take (j * n), ?_, ?_, ?_⟩
      · rw [List.take_take, Nat.min_eq_left (by omega)]
        exact hblock
      · rw [List.drop_take, Nat.add_sub_cancel_left]
        exact hfront
      · rw [List.take_append, hlen, List.take_of_length_le (by omega), Nat.add_sub_cancel_left]
    · have hout : (block ++ rest).drop (n + j * n) = rest.drop (j * n) := by
        rw [← List.drop_drop, ← hlen, List.drop_left]
      rw [hcut, ← List.drop_drop, hout]
      exact hback

/-- Undoing block by block. -/
theorem Undoes.inBlocks (h : Undoes f g n R) {k : ℕ} {st last : σ} {st' : τ} {l out : List β}
    (hst : R st st') (hl : l.length = k * n) (hf : inBlocks f n k st l = .ok (out, last)) :
    ∃ last', inBlocks g n k st' out = .ok (l, last') ∧ R last last' := by
  induction k generalizing st st' l out with
  | zero =>
    simp only [inBlocks_zero, Except.ok.injEq, Prod.mk.injEq] at hf
    obtain ⟨rfl, rfl⟩ := hf
    have hnil : l = [] := List.length_eq_zero_iff.mp (by omega)
    exact ⟨st', by rw [hnil]; rfl, hst⟩
  | succ k ih =>
    obtain ⟨block, next, rest, hblock, hrest, rfl⟩ := inBlocks_succ_ok.mp hf
    obtain ⟨htake, hdrop⟩ := length_take_block hl
    obtain ⟨next', hundo, hnext⟩ := h.undo hst htake hblock
    obtain ⟨last', hothers, hlast⟩ := ih hnext hdrop hrest
    have hlen : block.length = n := h.length htake hblock
    refine ⟨last', inBlocks_succ_ok.mpr ⟨l.take n, next', l.drop n, ?_, ?_, ?_⟩, hlast⟩
    · rw [List.take_append_of_le_length (by omega), List.take_of_length_le (by omega)]
      exact hundo
    · rw [List.drop_append_of_le_length (by omega), List.drop_of_length_le (by omega),
        List.nil_append]
      exact hothers
    · exact (List.take_append_drop n l).symm

end Jterm.Blocks
