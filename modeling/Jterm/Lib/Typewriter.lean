import Jterm.Lib.Runs
import Mathlib.Algebra.Order.Ring.Int
import Mathlib.Data.Int.Notation
import Mathlib.Tactic.Ring

/-!
A typewriter whose sheet does not end: lines of one width, and a head that goes along them. A
window that follows the head down shows the last lines of the sheet; what is above it does not
change any more.
-/
namespace Jterm.Typewriter

open Runs

inductive Key (α : Type*)
  | char (a : α)
  | ret
  | feed
  | back
  deriving DecidableEq, Repr

def Key.map {α β : Type*} (f : α → β) : Key α → Key β
  | .char a => .char (f a)
  | .ret => .ret
  | .feed => .feed
  | .back => .back

/-- `full`: the last column has been written, and the head is still there. -/
structure Sheet (α : Type*) where
  width : ℤ
  line : ℤ
  col : ℤ
  full : Bool
  ink : ℤ → ℤ → α

namespace Sheet

variable {α : Type*}

def feed (s : Sheet α) : Sheet α := { s with line := s.line + 1 }

def ret (s : Sheet α) : Sheet α := { s with col := 0, full := false }

def back (s : Sheet α) : Sheet α := if 0 < s.col then { s with col := s.col - 1, full := false } else s

/-- A character behind a full line begins the next. -/
def wrap (s : Sheet α) : Sheet α := if s.full then s.feed.ret else s

def write (s : Sheet α) (a : α) : Sheet α :=
  { s with ink := fun line col => if line = s.line ∧ col = s.col then a else s.ink line col }

def advance (s : Sheet α) : Sheet α :=
  if s.width ≤ s.col + 1 then { s with full := true } else { s with col := s.col + 1 }

def press (s : Sheet α) : Key α → Sheet α
  | .char a => (s.wrap.write a).advance
  | .ret => s.ret
  | .feed => s.feed
  | .back => s.back

/-- No line is fed while the head stands behind a full one. -/
def Feeds (s : Sheet α) : Key α → Prop
  | .feed => s.full = false
  | _ => True

instance (s : Sheet α) : DecidablePred s.Feeds
  | .feed => inferInstanceAs (Decidable (_ = _))
  | .char _ | .ret | .back => inferInstanceAs (Decidable True)

theorem feeds_chars (s : Sheet α) (as : List α) : AllSteps press Feeds s (as.map .char) := by
  induction as generalizing s with
  | nil => trivial
  | cons a as ih => exact ⟨trivial, ih _⟩

/-- The head is on the sheet. -/
structure Placed (s : Sheet α) : Prop where
  line : 0 ≤ s.line
  col : 0 ≤ s.col ∧ s.col < s.width
  full : s.full = true → s.col = s.width - 1

theorem Placed.write {s : Sheet α} (h : s.Placed) (a : α) : (s.write a).Placed :=
  ⟨h.line, h.col, h.full⟩

theorem placed_wrap {s : Sheet α} (h : s.Placed) : s.wrap.Placed := by
  obtain ⟨hline, hcol, hfull⟩ := h
  unfold wrap
  split
  · refine ⟨?_, ?_, fun hon => by contradiction⟩
    · change 0 ≤ s.line + 1
      omega
    · change (0 : ℤ) ≤ 0 ∧ 0 < s.width
      omega
  · exact ⟨hline, hcol, hfull⟩

theorem placed_advance {s : Sheet α} (h : s.Placed) : s.advance.Placed := by
  obtain ⟨hline, hcol, hfull⟩ := h
  unfold advance
  split
  · refine ⟨hline, hcol, fun _ => ?_⟩
    change s.col = s.width - 1
    omega
  · refine ⟨hline, ?_, fun hon => ?_⟩
    · change 0 ≤ s.col + 1 ∧ s.col + 1 < s.width
      omega
    · have := hfull hon
      change s.col + 1 = s.width - 1
      omega

theorem placed_press {s : Sheet α} (h : s.Placed) (k : Key α) : (s.press k).Placed := by
  cases k with
  | char a =>
    have hwrap := placed_wrap h
    exact placed_advance (hwrap.write a)
  | ret =>
    refine ⟨h.line, ⟨Int.le_refl 0, ?_⟩, fun hon => by contradiction⟩
    have := h.col
    change 0 < s.width
    omega
  | feed =>
    refine ⟨?_, h.col, h.full⟩
    have := h.line
    change 0 ≤ s.line + 1
    omega
  | back =>
    have hcol := h.col
    unfold press back
    dsimp only
    split
    · refine ⟨h.line, ?_, fun hon => by contradiction⟩
      change 0 ≤ s.col - 1 ∧ s.col - 1 < s.width
      omega
    · exact h

/-! The window. -/

/-- The first line that a window of this height shows. -/
def top (height : ℤ) (s : Sheet α) : ℤ := max 0 (s.line + 1 - height)

/-- The lines that are above it. -/
def above (height : ℤ) (s : Sheet α) : List (List α) :=
  (List.range (s.top height).toNat).map fun (line : ℕ) =>
    (List.range s.width.toNat).map fun (col : ℕ) => s.ink line col

/-- The lines in it. -/
def shown (height : ℤ) (s : Sheet α) : List (List α) :=
  (List.range height.toNat).map fun (row : ℕ) =>
    (List.range s.width.toNat).map fun (col : ℕ) => s.ink (s.top height + row) col

/-- The window follows the head when it is on its last line. -/
theorem top_feed_of_last {height : ℤ} {s : Sheet α}
    (hlast : s.line - s.top height = height - 1) : s.feed.top height = s.top height + 1 := by
  unfold top feed at *
  dsimp only
  omega

theorem top_feed_of_not_last {height : ℤ} {s : Sheet α}
    (hlast : s.line - s.top height ≠ height - 1) : s.feed.top height = s.top height := by
  unfold top feed at *
  dsimp only
  omega

/-- The head is in the window. -/
theorem line_in_window {height : ℤ} (hheight : 0 < height) {s : Sheet α} (hline : 0 ≤ s.line) :
    s.top height ≤ s.line ∧ s.line < s.top height + height := by
  unfold top
  omega

theorem above_write {height : ℤ} (hheight : 0 < height) {s : Sheet α} (hline : 0 ≤ s.line) (a : α) :
    (s.write a).above height = s.above height := by
  refine List.map_congr_left fun line hmem => List.map_congr_left fun col _ => ?_
  have hlt := List.mem_range.mp hmem
  have htop : (s.write a).top height = s.top height := rfl
  have hin := line_in_window hheight hline
  rw [htop] at hlt
  exact if_neg (by omega)

theorem above_feed {height : ℤ} {s : Sheet α} (htop : s.feed.top height = s.top height + 1) :
    s.feed.above height = s.above height ++
      [(List.range s.width.toNat).map fun (col : ℕ) => s.ink (s.top height) col] := by
  have hpos : 0 ≤ s.top height := Int.le_max_left _ _
  have hnext : (s.feed.top height).toNat = (s.top height).toNat + 1 := by omega
  unfold above
  rw [hnext, List.range_succ, List.map_append, List.map_singleton, Int.toNat_of_nonneg hpos]
  rfl

/-! The sheet as one line of text. -/

/-- Where the next character comes, counted from the start of the sheet. -/
def offset (s : Sheet α) : ℤ := s.line * s.width + s.col + if s.full then 1 else 0

def linear (s : Sheet α) (n : ℤ) : α := s.ink (n / s.width) (n % s.width)

theorem offset_wrap {s : Sheet α} (h : s.Placed) :
    s.wrap.offset = s.offset ∧ s.wrap.full = false ∧ s.wrap.ink = s.ink ∧
      s.wrap.width = s.width := by
  unfold wrap
  split
  · rename_i hfull
    refine ⟨?_, rfl, rfl, rfl⟩
    simp only [offset, feed, ret, hfull, h.full hfull, if_true, Bool.false_eq_true, if_false]
    ring
  · rename_i hfull
    exact ⟨rfl, by simpa using hfull, rfl, rfl⟩

theorem offset_press_char {s : Sheet α} (h : s.Placed) (a : α) :
    (s.press (.char a)).offset = s.offset + 1 := by
  obtain ⟨hoffset, hfull, -, -⟩ := offset_wrap h
  rw [← hoffset]
  unfold press advance write
  dsimp only
  split
  · simp [offset, hfull]
  · simp only [offset, hfull]
    ring

/-- A character is written at the offset, and nowhere else. -/
theorem linear_press_char {s : Sheet α} (h : s.Placed) (a : α) (n : ℤ) :
    (s.press (.char a)).linear n = if n = s.offset then a else s.linear n := by
  obtain ⟨hoffset, hfull, hink, hwidth⟩ := offset_wrap h
  obtain ⟨hline, ⟨hpos, hlt⟩, -⟩ := placed_wrap h
  have hplace : s.offset = s.wrap.col + s.wrap.line * s.width := by
    rw [← hoffset, offset, hfull, hwidth]
    simp only [if_false, Bool.false_eq_true]
    ring
  have hhead : n / s.width = s.wrap.line ∧ n % s.width = s.wrap.col ↔ n = s.offset := by
    rw [hwidth] at hlt
    rw [hplace]
    constructor
    · rintro ⟨hdiv, hmod⟩
      rw [← hdiv, ← hmod]
      exact (Int.emod_add_ediv_mul n s.width).symm
    · rintro rfl
      rw [Int.add_mul_ediv_right _ _ (by omega), Int.add_mul_emod_self_right,
        Int.ediv_eq_zero_of_lt hpos hlt, Int.emod_eq_of_lt hpos hlt, Int.zero_add]
      exact ⟨rfl, rfl⟩
  have hsame : (s.press (.char a)).linear n = (s.wrap.write a).linear n := by
    unfold press advance
    dsimp only
    split <;> rfl
  rw [hsame]
  simp only [linear, write, hwidth, hink]
  exact if_congr hhead rfl rfl

/-- What has been typed before stays. -/
theorem linear_chars_of_lt {s : Sheet α} (h : s.Placed) (as : List α) {n : ℤ} (hn : n < s.offset) :
    (run press s (as.map .char)).linear n = s.linear n := by
  induction as generalizing s with
  | nil => rfl
  | cons a as ih =>
    have hoffset := offset_press_char h a
    have hrest := ih (placed_press h (.char a)) (by omega)
    rw [List.map_cons, run, List.foldl_cons]
    refine hrest.trans ?_
    rw [linear_press_char h, if_neg (by omega)]

/-- Text that is typed on stands there, character by character. -/
theorem read_chars {s : Sheet α} (h : s.Placed) (as : List α) :
    ((List.range as.length).map fun (k : ℕ) =>
        (run press s (as.map .char)).linear (s.offset + k)) = as := by
  induction as generalizing s with
  | nil => rfl
  | cons a as ih =>
    have hoffset := offset_press_char h a
    have hplaced := placed_press h (.char a)
    have hrest := ih hplaced
    have hfirst := linear_chars_of_lt hplaced as (n := s.offset) (by omega)
    rw [linear_press_char h, if_pos rfl] at hfirst
    rw [List.map_cons, run, List.foldl_cons, List.length_cons, List.range_succ_eq_map, List.map_cons,
      List.map_map]
    refine congr_arg₂ List.cons ?_ ?_
    · rw [Nat.cast_zero, Int.add_zero]
      exact hfirst
    · refine Eq.trans ?_ hrest
      refine List.map_congr_left fun k _ => ?_
      rw [Function.comp_apply, hoffset, Nat.cast_succ, Int.add_assoc, Int.add_comm 1]

/-- Lines one after the other. -/
theorem flatten_lines (ink : ℤ → ℤ → α) (width lines : ℕ) :
    ((List.range lines).map fun (line : ℕ) => (List.range width).map fun (col : ℕ) =>
        ink line col).flatten =
      (List.range (lines * width)).map fun (n : ℕ) => ink (n / width : ℤ) (n % width : ℤ) := by
  induction lines with
  | zero => simp
  | succ lines ih =>
    rw [List.range_succ, List.map_append, List.flatten_append, ih, Nat.succ_mul, List.range_add,
      List.map_append]
    congr 1
    rw [List.map_singleton, List.flatten_singleton, List.map_map]
    refine List.map_congr_left fun col hcol => ?_
    have hlt := List.mem_range.mp hcol
    rw [Function.comp_apply, Nat.cast_add, Nat.cast_mul]
    congr 1
    · rw [Int.add_comm, Int.add_mul_ediv_right _ _ (by omega),
        Int.ediv_eq_zero_of_lt (by omega) (by omega), Int.zero_add]
    · rw [Int.add_comm, Int.add_mul_emod_self_right, Int.emod_eq_of_lt (by omega) (by omega)]

/-- What is above the window and what is in it are the sheet from its start. -/
theorem above_append_shown (height : ℤ) {s : Sheet α} (hwidth : 0 ≤ s.width) :
    (s.above height ++ s.shown height).flatten =
      (List.range (((s.top height).toNat + height.toNat) * s.width.toNat)).map fun (n : ℕ) =>
        s.linear n := by
  have htop : 0 ≤ s.top height := Int.le_max_left _ _
  have hlines : s.above height ++ s.shown height =
      (List.range ((s.top height).toNat + height.toNat)).map fun (line : ℕ) =>
        (List.range s.width.toNat).map fun (col : ℕ) => s.ink line col := by
    rw [List.range_add, List.map_append, List.map_map]
    refine congrArg (s.above height ++ ·) (List.map_congr_left fun row _ => ?_)
    rw [Function.comp_apply, Nat.cast_add, Int.toNat_of_nonneg htop]
  rw [hlines, flatten_lines]
  refine List.map_congr_left fun n _ => ?_
  rw [Int.toNat_of_nonneg hwidth, linear]

theorem placed_run {s : Sheet α} (h : s.Placed) (ks : List (Key α)) : (run press s ks).Placed :=
  invariant_of_step press Placed (fun _ k ht => placed_press ht k) ks h

theorem offset_nonneg {s : Sheet α} (h : s.Placed) : 0 ≤ s.offset := by
  obtain ⟨hline, ⟨hcol, hlt⟩, -⟩ := h
  have hlines : 0 ≤ s.line * s.width := Int.mul_nonneg hline (by omega)
  unfold offset
  split <;> omega

/-- The head is not behind the window. -/
theorem offset_le {height : ℤ} (hheight : 0 < height) {s : Sheet α} (h : s.Placed) :
    s.offset ≤ (s.top height + height) * s.width := by
  have hwindow := line_in_window hheight h.line
  have hcol := h.col
  have hlines : (s.line + 1) * s.width ≤ (s.top height + height) * s.width :=
    Int.mul_le_mul_of_nonneg_right (by omega) (by omega)
  have hline : (s.line + 1) * s.width = s.line * s.width + s.width := by ring
  unfold offset
  split <;> omega

theorem chars_fields {s : Sheet α} (h : s.Placed) (as : List α) :
    (run press s (as.map .char)).offset = s.offset + as.length ∧
      (run press s (as.map .char)).width = s.width := by
  induction as generalizing s with
  | nil => exact ⟨(Int.add_zero _).symm, rfl⟩
  | cons a as ih =>
    obtain ⟨hoffset, hwidth⟩ := ih (placed_press h (.char a))
    rw [offset_press_char h] at hoffset
    refine ⟨?_, hwidth.trans ?_⟩
    · rw [List.length_cons, Nat.cast_succ]
      exact hoffset.trans (by ring)
    · unfold press advance write
      dsimp only
      rw [← (offset_wrap h).2.2.2]
      split
      · rfl
      · rfl

theorem take_drop_range (f : ℕ → α) {start length n : ℕ} (h : start + length ≤ n) :
    (((List.range n).map f).drop start).take length =
      (List.range length).map fun k => f (start + k) := by
  apply List.ext_getElem
  · simp
    omega
  · simp

/-- Text that is typed on is read back from the window and what is above it. -/
theorem text_in_window {height : ℤ} (hheight : 0 < height) {s : Sheet α} (h : s.Placed)
    (as : List α) :
    (((run press s (as.map .char)).above height ++
        (run press s (as.map .char)).shown height).flatten.drop s.offset.toNat).take as.length =
      as := by
  have hplaced := placed_run h (as.map .char)
  obtain ⟨hoffset, hwidth⟩ := chars_fields h as
  have hle := offset_le hheight hplaced
  have hpos := offset_nonneg h
  have htop : 0 ≤ (run press s (as.map .char)).top height := Int.le_max_left _ _
  have hcol := hplaced.col
  have hcells : s.offset.toNat + as.length ≤
      (((run press s (as.map .char)).top height).toNat + height.toNat) *
        (run press s (as.map .char)).width.toNat := by
    apply Int.ofNat_le.mp
    rw [Nat.cast_add, Nat.cast_mul, Nat.cast_add, Int.toNat_of_nonneg hpos, Int.toNat_of_nonneg htop,
      Int.toNat_of_nonneg (by omega), Int.toNat_of_nonneg (by omega), ← hoffset]
    exact hle
  have hread := read_chars h as
  rw [above_append_shown height (by omega), take_drop_range _ hcells]
  refine Eq.trans (List.map_congr_left fun k _ => ?_) hread
  rw [Nat.cast_add, Int.toNat_of_nonneg hpos]

end Sheet

end Jterm.Typewriter
