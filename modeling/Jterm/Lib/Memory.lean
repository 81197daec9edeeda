import Mathlib.Data.List.Basic

/-!
A memory is a function from indices to values, read as the list of the values between
two indices. Copying a list into the memory and moving a range of it to the front are
the two ways in which buffered input changes it.
-/
namespace Jterm.Memory

variable {α : Type*}

/-- The values at `i`, …, `j - 1`. -/
def readRange (mem : ℕ → α) (i j : ℕ) : List α := (List.range' i (j - i)).map mem

/-- `memcpy` of a list to index `i`. -/
def store (mem : ℕ → α) (i : ℕ) (data : List α) : ℕ → α := fun k =>
  if i ≤ k then (data[k - i]?).getD (mem k) else mem k

/-- `memmove` of the `n` values at `i` to index 0. -/
def moveToFront (mem : ℕ → α) (i n : ℕ) : ℕ → α := fun k => if k < n then mem (i + k) else mem k

theorem readRange_self (mem : ℕ → α) (i : ℕ) : readRange mem i i = [] := by
  simp [readRange]

theorem readRange_append (mem : ℕ → α) {i j k : ℕ} (hij : i ≤ j) (hjk : j ≤ k) :
    readRange mem i j ++ readRange mem j k = readRange mem i k := by
  have hsum : k - i = (j - i) + (k - j) := by omega
  have hstart : i + (j - i) = j := by omega
  rw [readRange, readRange, readRange, hsum, ← List.map_append, ← List.range'_append_1, hstart]

theorem readRange_congr {mem mem' : ℕ → α} {i j : ℕ} (h : ∀ k, i ≤ k → k < j → mem k = mem' k) :
    readRange mem i j = readRange mem' i j := by
  apply List.map_congr_left
  intro k hk
  rw [List.mem_range'_1] at hk
  exact h k hk.1 (by omega)

theorem readRange_store (mem : ℕ → α) (i : ℕ) (data : List α) :
    readRange (store mem i data) i (i + data.length) = data := by
  apply List.ext_getElem
  · simp [readRange]
  · intro k h1 h2
    simp [readRange, store, List.getElem?_eq_getElem h2]

/-- What lies before the copied list stays. -/
theorem readRange_store_before (mem : ℕ → α) {i j k : ℕ} (data : List α) (h : k ≤ j) :
    readRange (store mem j data) i k = readRange mem i k := by
  apply readRange_congr
  intro l _ hl
  simp [store, show ¬ j ≤ l by omega]

theorem readRange_moveToFront (mem : ℕ → α) (i n : ℕ) :
    readRange (moveToFront mem i n) 0 n = readRange mem i (i + n) := by
  apply List.ext_getElem
  · simp [readRange]
  · intro k h1 h2
    have hk : k < n := by simpa [readRange] using h1
    simp [readRange, moveToFront, hk]

end Jterm.Memory
