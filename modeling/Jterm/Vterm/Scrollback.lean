import Jterm.Vterm.Pen
import Mathlib.Data.List.Induction
import Mathlib.Logic.Function.Basic
import Mathlib.Tactic.SplitIfs

/-!
The scrollback of webvterm.c: a ring of lines with one index, which is wrapped by the next
push, and the lookup of `grab_row` for negative rows.
-/
namespace Jterm.Vterm

abbrev Line := List VTermScreenCell

def scrollBufferInitialSize : ℕ := 10000

/-- A `none` in `lines` is a null pointer; before the first push there is no buffer and
`size` is 0. -/
structure ScrollBuffer where
  size : ℕ
  bufferEnd : ℕ
  lines : ℕ → Option Line
  lens : ℕ → ℕ

namespace ScrollBuffer

def empty : ScrollBuffer := ⟨0, 0, fun _ => none, fun _ => 0⟩

/-- scroll_buffer_init -/
def init : ScrollBuffer := ⟨scrollBufferInitialSize, 0, fun _ => none, fun _ => 0⟩

/-- scroll_buffer_push -/
def push (b : ScrollBuffer) (line : Line) : ScrollBuffer :=
  let b := if b.size = 0 then init else b
  let slot := if b.size ≤ b.bufferEnd then 0 else b.bufferEnd
  { b with
    lines := Function.update b.lines slot (some line)
    lens := Function.update b.lens slot line.length
    bufferEnd := slot + 1 }

/-- scroll_buffer_get; a negative index counts from the end of the buffer, once. -/
def get (b : ScrollBuffer) (lineNumber : ℕ) : Option Line × ℤ :=
  let idx : ℤ := b.bufferEnd - lineNumber - 1
  let idx := if idx < 0 then b.size + idx else idx
  (b.lines idx.toNat, b.lens idx.toNat)

/-- `grab_row(-k)` and what it leaves in `len`. -/
def grabRow (b : ScrollBuffer) (k : ℕ) (len : ℤ) : Option Line × ℤ :=
  if b.size < k then (none, len) else b.get k

end ScrollBuffer

/-- How many cells webvterm_get_row reads of a row of length `len` and writes to the buffers. -/
def cellsRead (cols len : ℤ) : ℕ := (min cols len).toNat

/-- The history of pushes, and the buffer after it. -/
def scrollback (pushed : List Line) : ScrollBuffer := pushed.foldl ScrollBuffer.push .empty

/-- The `k`-th most recently pushed line, from 0 on. -/
def newest (pushed : List Line) (k : ℕ) : Option Line := pushed.reverse[k]?

/-- Row -k is the k-th most recently pushed line; where there is none, no row is returned and
webvterm_get_row reads and writes nothing. -/
def RowAddressed (pushed : List Line) (k : ℕ) (cols len : ℤ) : Prop :=
  if k ≤ min pushed.length (scrollback pushed).size then
    ∃ line, newest pushed (k - 1) = some line ∧
      (scrollback pushed).grabRow k len = (some line, (line.length : ℤ))
  else ((scrollback pushed).grabRow k len).1 = none ∧
    cellsRead cols ((scrollback pushed).grabRow k len).2 = 0

/-- The slots hold the last lines, the newest in front of `bufferEnd`. -/
structure RingInv (b : ScrollBuffer) (pushed : List Line) : Prop where
  size : b.size = scrollBufferInitialSize
  end_pos : pushed ≠ [] → 1 ≤ b.bufferEnd
  end_le : b.bufferEnd ≤ b.size
  lines : ∀ i < b.size, b.lines ((b.bufferEnd + b.size - 1 - i) % b.size) = newest pushed i
  lens : ∀ i < b.size, b.lens ((b.bufferEnd + b.size - 1 - i) % b.size) =
    ((newest pushed i).getD []).length

theorem newest_append (pushed : List Line) (line : Line) (i : ℕ) :
    newest (pushed ++ [line]) i = if i = 0 then some line else newest pushed (i - 1) := by
  unfold newest
  rw [List.reverse_append, List.reverse_singleton, List.singleton_append]
  cases i with
  | zero => rfl
  | succ i => simp

theorem newest_isSome {pushed : List Line} {i : ℕ} (h : i < pushed.length) :
    ∃ line, newest pushed i = some line := by
  unfold newest
  rw [← List.length_reverse] at h
  exact ⟨_, List.getElem?_eq_getElem h⟩

theorem newest_eq_none {pushed : List Line} {i : ℕ} (h : pushed.length ≤ i) :
    newest pushed i = none := by
  unfold newest
  rw [List.getElem?_eq_none_iff, List.length_reverse]
  exact h

theorem ringInv_init : RingInv .init [] where
  size := rfl
  end_pos h := absurd rfl h
  end_le := Nat.zero_le _
  lines _ _ := rfl
  lens _ _ := rfl

/-- The slot `i` behind the one that the next push fills, whether or not the index has to wrap. -/
theorem slot_back {size last slot : ℕ} (hlast : last ≤ size)
    (hslot : slot = if size ≤ last then 0 else last) {i : ℕ} (hi : i < size) :
    (slot + 1 + size - 1 - i) % size = if i = 0 then slot else (last + size - 1 - (i - 1)) % size := by
  split at hslot
  · have hfull : last = size := by omega
    rw [hslot, hfull]
    split
    · rw [show 0 + 1 + size - 1 - i = size by omega, Nat.mod_self]
    · rw [show size + size - 1 - (i - 1) = (0 + 1 + size - 1 - i) + size by omega,
        Nat.add_mod_right]
  · rw [hslot]
    split
    · rw [show last + 1 + size - 1 - i = last + size by omega, Nat.add_mod_right]
      exact Nat.mod_eq_of_lt (by omega)
    · congr 1
      omega

/-- The other slots behind it are different ones. -/
theorem slot_back_ne {size last slot : ℕ} (hslot : slot = if size ≤ last then 0 else last) {i : ℕ}
    (hpos : i ≠ 0) (hi : i < size) : (slot + 1 + size - 1 - i) % size ≠ slot := by
  have hlt : slot < size := by
    split at hslot <;> omega
  by_cases hwrap : i ≤ slot
  · rw [show slot + 1 + size - 1 - i = (slot - i) + size by omega, Nat.add_mod_right,
      Nat.mod_eq_of_lt (by omega)]
    omega
  · rw [Nat.mod_eq_of_lt (by omega)]
    omega

theorem RingInv.push {b : ScrollBuffer} {pushed : List Line} (h : RingInv b pushed) (line : Line) :
    RingInv (b.push line) (pushed ++ [line]) := by
  have hpos : b.size ≠ 0 := by
    rw [h.size]
    decide
  obtain ⟨slot, hslot⟩ : ∃ slot, slot = if b.size ≤ b.bufferEnd then 0 else b.bufferEnd := ⟨_, rfl⟩
  have hpush : b.push line = { b with
      lines := Function.update b.lines slot (some line)
      lens := Function.update b.lens slot line.length
      bufferEnd := slot + 1 } := by
    unfold ScrollBuffer.push
    rw [if_neg hpos, hslot]
  have hlt : slot < b.size := by
    split at hslot <;> omega
  rw [hpush]
  refine ⟨h.size, fun _ => Nat.le_add_left 1 slot, hlt, ?_, ?_⟩
  · intro i (hi : i < b.size)
    change Function.update b.lines slot (some line) _ = _
    by_cases hi0 : i = 0
    · rw [slot_back h.end_le hslot hi, if_pos hi0, Function.update_self, newest_append, if_pos hi0]
    · rw [Function.update_of_ne (slot_back_ne hslot hi0 hi), slot_back h.end_le hslot hi,
        if_neg hi0, newest_append, if_neg hi0]
      exact h.lines (i - 1) (by omega)
  · intro i (hi : i < b.size)
    change Function.update b.lens slot line.length _ = _
    by_cases hi0 : i = 0
    · rw [slot_back h.end_le hslot hi, if_pos hi0, Function.update_self, newest_append, if_pos hi0]
      rfl
    · rw [Function.update_of_ne (slot_back_ne hslot hi0 hi), slot_back h.end_le hslot hi,
        if_neg hi0, newest_append, if_neg hi0]
      exact h.lens (i - 1) (by omega)

/-- From the first push on, which allocates the buffer. -/
theorem ringInv_scrollback {pushed : List Line} (hne : pushed ≠ []) :
    RingInv (scrollback pushed) pushed := by
  induction pushed using List.reverseRecOn with
  | nil => exact absurd rfl hne
  | append_singleton pushed line ih =>
    unfold scrollback at ih ⊢
    rw [List.foldl_append, List.foldl_cons, List.foldl_nil]
    by_cases hfirst : pushed = []
    · rw [hfirst]
      exact ringInv_init.push line
    · exact (ih hfirst).push line

/-- What the lookup finds of the last lines: the line one older than it should, and the newest for
the last row of the buffer. -/
theorem RingInv.get {b : ScrollBuffer} {pushed : List Line} (h : RingInv b pushed)
    (hne : pushed ≠ []) {k : ℕ} (hk : 1 ≤ k) (hle : k ≤ b.size) :
    b.get k = (newest pushed (if k = b.size then 0 else k),
      (((newest pushed (if k = b.size then 0 else k)).getD []).length : ℤ)) := by
  have hend := h.end_pos hne
  have hsize := h.end_le
  have hlt : (if k = b.size then 0 else k) < b.size := by
    split <;> omega
  have hidx : (if (b.bufferEnd : ℤ) - k - 1 < 0 then (b.size : ℤ) + (b.bufferEnd - k - 1)
      else b.bufferEnd - k - 1).toNat =
        (b.bufferEnd + b.size - 1 - if k = b.size then 0 else k) % b.size := by
    by_cases hlast : k = b.size
    · rw [if_pos hlast, if_pos (by omega), Nat.sub_zero,
        show b.bufferEnd + b.size - 1 = (b.bufferEnd - 1) + b.size by omega, Nat.add_mod_right,
        Nat.mod_eq_of_lt (by omega)]
      omega
    · rw [if_neg hlast]
      by_cases hwrap : b.bufferEnd ≤ k
      · rw [if_pos (by omega), Nat.mod_eq_of_lt (by omega)]
        omega
      · rw [if_neg (by omega),
          show b.bufferEnd + b.size - 1 - k = (b.bufferEnd - 1 - k) + b.size by omega,
          Nat.add_mod_right, Nat.mod_eq_of_lt (by omega)]
        omega
  unfold ScrollBuffer.get
  dsimp only
  rw [hidx, h.lines _ hlt, h.lens _ hlt]

/-- Row -k is the k-th last line exactly when the line before that one is the same, or for the last
row of the ring the newest one. Where there is no such line nothing is read, except for k beyond
the ring, or before the first push, by a caller with room in its buffers; and the last row of the
ring is always found. -/
theorem rowAddressed_iff (pushed : List Line) {k : ℕ} (hk : 1 ≤ k) (cols len : ℤ) :
    RowAddressed pushed k cols len ↔
      if k ≤ min pushed.length scrollBufferInitialSize then
        newest pushed (k - 1) = newest pushed (if k = scrollBufferInitialSize then 0 else k)
      else (pushed = [] ∨ scrollBufferInitialSize < k) ∧ (cols ≤ 0 ∨ len ≤ 0) ∨
        pushed ≠ [] ∧ k < scrollBufferInitialSize := by
  have hread : cellsRead cols len = 0 ↔ cols ≤ 0 ∨ len ≤ 0 := by
    unfold cellsRead
    omega
  by_cases hne : pushed = []
  · have hsize : (scrollback pushed).size < k := by
      rw [hne]
      exact hk
    unfold RowAddressed ScrollBuffer.grabRow
    rw [if_pos hsize, hne]
    simp only [List.length_nil, Nat.zero_min]
    rw [if_neg (by omega), if_neg (by omega), hread]
    simp
  have hring := ringInv_scrollback hne
  unfold RowAddressed ScrollBuffer.grabRow
  rw [hring.size]
  by_cases hbeyond : scrollBufferInitialSize < k
  · rw [if_pos hbeyond]
    simp only [hne, false_or, hbeyond, true_and, ne_eq, not_false_eq_true]
    rw [if_neg (by omega), if_neg (by omega), hread]
    exact ⟨.inl, fun h => h.elim id fun hlt => absurd hlt (by omega)⟩
  rw [if_neg hbeyond, hring.get hne hk (by rw [hring.size]; omega), hring.size]
  dsimp only
  by_cases hpushed : k ≤ min pushed.length scrollBufferInitialSize
  · rw [if_pos hpushed, if_pos hpushed]
    obtain ⟨line, hline⟩ := newest_isSome (show k - 1 < pushed.length by omega)
    rw [hline]
    constructor
    · rintro ⟨_, hsame, hrow⟩
      rw [hsame]
      exact (Prod.mk.inj hrow).1.symm
    · intro hsame
      rw [← hsame]
      exact ⟨line, rfl, rfl⟩
  · rw [if_neg hpushed, if_neg hpushed]
    by_cases hlast : k = scrollBufferInitialSize
    · obtain ⟨line, hline⟩ := newest_isSome (List.length_pos_iff.mpr hne)
      rw [if_pos hlast, hline]
      simp [hlast, hne]
    · have hnone := newest_eq_none (show pushed.length ≤ k by omega)
      rw [if_neg hlast, hnone]
      have hlt : k < scrollBufferInitialSize := by omega
      have hnothing : cellsRead cols 0 = 0 := by
        unfold cellsRead
        omega
      simp [hne, hlt, hnothing]

/-- A line of one blank cell. -/
def blankLine : Line := [⟨[], false, ⟨0, 0, 0⟩, ⟨0, 0, 0⟩⟩]

theorem rowAddressed_iff_repeated : RowAddressed [blankLine, blankLine] 1 80 80 :=
  (rowAddressed_iff _ (by decide) 80 80).mpr (by decide)

/-- After one push row -1 is not the line pushed. -/
theorem not_rowAddressed_newest : ¬ RowAddressed [blankLine] 1 80 80 := by
  rw [rowAddressed_iff _ (by decide)]
  decide

end Jterm.Vterm
