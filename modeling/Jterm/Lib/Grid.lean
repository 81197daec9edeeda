import Mathlib.Data.Int.Notation
import Mathlib.Data.List.Induction
import Mathlib.Tactic.Common

/-!
Grids of cells. Rows that are copied one after the other inside a grid are moved all at
once, as long as no row is read after it has been written.
-/
namespace Jterm.Grid

variable {α : Type*}

/-- The cells of `row` in the columns `cols` are taken `down` rows below and `right` columns
to the right. -/
def copyRow (cols : ℤ → Prop) [DecidablePred cols] (down right : ℤ) (g : ℤ → ℤ → α) (row : ℤ) :
    ℤ → ℤ → α :=
  fun r c => if r = row ∧ cols c then g (r + down) (c + right) else g r c

/-- Every cell of the region is taken from `down` rows below and `right` columns to the right. -/
def moved (region : ℤ → ℤ → Prop) [∀ r c, Decidable (region r c)] (down right : ℤ)
    (g : ℤ → ℤ → α) : ℤ → ℤ → α :=
  fun r c => if region r c then g (r + down) (c + right) else g r c

/-- Every cell of the region is changed by itself. -/
def changed (region : ℤ → ℤ → Prop) [∀ r c, Decidable (region r c)] (f : α → α)
    (g : ℤ → ℤ → α) : ℤ → ℤ → α :=
  fun r c => if region r c then f (g r c) else g r c

/-- No row is read after it has been written. -/
def ReadsFirst (down : ℤ) (rows : List ℤ) : Prop := rows.Pairwise fun a b => b + down ≠ a

theorem foldl_copyRow {cols : ℤ → Prop} [DecidablePred cols] {down : ℤ} (right : ℤ)
    {rows : List ℤ} (h : ReadsFirst down rows) (g : ℤ → ℤ → α) :
    rows.foldl (copyRow cols down right) g =
      moved (fun r c => r ∈ rows ∧ cols c) down right g := by
  induction rows using List.reverseRecOn with
  | nil =>
    funext r c
    simp [moved]
  | append_singleton rows row ih =>
    obtain ⟨hrows, -, hcross⟩ := List.pairwise_append.mp h
    have hunread : row + down ∉ rows := fun hmem => hcross _ hmem row (by simp) rfl
    rw [List.foldl_append, ih hrows, List.foldl_cons, List.foldl_nil]
    funext r c
    unfold copyRow moved
    by_cases hr : r = row
    · subst hr
      by_cases hc : cols c
      · simp [hc, hunread]
      · simp [hc]
    · simp [hr]

/-- From above, where the cells come from below or from the same row. -/
theorem readsFirst_down {down start : ℤ} (h : 0 ≤ down) (n : ℕ) :
    ReadsFirst down ((List.range n).map fun (k : ℕ) => start + k) := by
  refine List.pairwise_map.mpr (List.pairwise_lt_range.imp ?_)
  intro a b hab
  omega

/-- From below, where they come from above. -/
theorem readsFirst_up {down start : ℤ} (h : down < 0) (n : ℕ) :
    ReadsFirst down ((List.range n).map fun (k : ℕ) => start + k).reverse := by
  refine List.pairwise_reverse.mpr (List.pairwise_map.mpr (List.pairwise_lt_range.imp ?_))
  intro a b hab
  omega

end Jterm.Grid
