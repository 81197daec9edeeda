import Jterm.Vterm.Csi
import Jterm.Vterm.PenReads
import Mathlib.Data.List.Induction
import Mathlib.Data.List.TakeDrop
import Mathlib.Data.List.TakeWhile

/-!
What a control sequence says, and what do_string_csi makes of it. The parameters are fields
between separators; the first sixteen are the arguments. The three passes over the bytes give
back the sequence unless leader or intermediate bytes outgrow their arrays, or parameters
behind the sixteenth field hide the intermediate bytes.
-/
namespace Jterm.Vterm

def isSeparator (b : UInt8) : Bool := b = 0x3b ∨ b = 0x3a

/-- The fields, the first of which has begun with `digits`, and whether a `:` follows each. -/
def fieldsFrom (digits : List UInt8) : List UInt8 → List (List UInt8 × Bool)
  | [] => [(digits, false)]
  | b :: params =>
    if isSeparator b then (digits, decide (b = 0x3a)) :: fieldsFrom [] params
    else fieldsFrom (digits ++ [b]) params

def fields (params : List UInt8) : List (List UInt8 × Bool) := fieldsFrom [] params

def decimal (digits : List UInt8) : ℕ := digits.foldl (fun n b => n * 10 + (b.toNat - 0x30)) 0

/-- The value of a field, or that it is missing. -/
def fieldValue (digits : List UInt8) : ℕ := if digits = [] then csiArgMissing else decimal digits

def fieldArg (field : List UInt8 × Bool) : ℕ :=
  fieldValue field.1 + if field.2 then 2 ^ 31 else 0

/-- A control sequence without its introducer: leader, parameters, intermediate bytes and the
final byte, and parameters below the value that stands for a missing one. -/
structure ControlSequence where
  leader : List UInt8
  params : List UInt8
  intermed : List UInt8
  final : UInt8
  leader_bytes : ∀ b ∈ leader, 0x3c ≤ b ∧ b ≤ 0x3f
  params_bytes : ∀ b ∈ params, 0x30 ≤ b ∧ b ≤ 0x3b
  intermed_bytes : ∀ b ∈ intermed, 0x20 ≤ b ∧ b ≤ 0x2f
  final_byte : 0x40 ≤ final ∧ final ≤ 0x7e
  values : ∀ field ∈ fields params, decimal field.1 < 2 ^ 31 - 1

namespace ControlSequence

def text (seq : ControlSequence) : List UInt8 := seq.leader ++ seq.params ++ seq.intermed

/-- The arguments that the sequence gives, up to the first sixteen. -/
def args (seq : ControlSequence) : List ℕ := ((fields seq.params).take csiArgsMax).map fieldArg

/-- do_string_csi hands on what the sequence says. -/
def Decoded (seq : ControlSequence) : Prop :=
  parseCsi seq.text seq.final = ⟨seq.leader, seq.args, seq.intermed, seq.final⟩

end ControlSequence

/-- What stands behind the first `n` separators. -/
def behindSeparators : ℕ → List UInt8 → List UInt8
  | 0, params => params
  | _ + 1, [] => []
  | n + 1, b :: params =>
    if isSeparator b then behindSeparators n params else behindSeparators (n + 1) params

/-- The arrays hold the leader and the intermediate bytes, and no parameters are left between the
sixteenth field and intermediate bytes. -/
def ControlSequence.Fits (seq : ControlSequence) : Prop :=
  seq.leader.length ≤ csiLeaderMax ∧ seq.intermed.length ≤ csiIntermedMax ∧
    (seq.intermed = [] ∨ behindSeparators csiArgsMax seq.params = [])

theorem decimal_append (digits : List UInt8) (b : UInt8) :
    decimal (digits ++ [b]) = decimal digits * 10 + (b.toNat - 0x30) := by
  unfold decimal
  rw [List.foldl_append]
  rfl

/-- The first field goes on from the digits it has begun with. -/
theorem fieldsFrom_head (digits params : List UInt8) :
    ∃ more flag rest, fieldsFrom digits params = (digits ++ more, flag) :: rest := by
  induction params generalizing digits with
  | nil => exact ⟨[], false, [], by rw [List.append_nil]; rfl⟩
  | cons b params ih =>
    unfold fieldsFrom
    split
    · exact ⟨[], _, _, by rw [List.append_nil]⟩
    · obtain ⟨more, flag, rest, heq⟩ := ih (digits ++ [b])
      exact ⟨b :: more, flag, rest, by rw [heq, List.append_assoc]; rfl⟩

theorem decimal_le_append (digits more : List UInt8) :
    decimal digits ≤ decimal (digits ++ more) := by
  induction more using List.reverseRecOn with
  | nil => exact Nat.le_of_eq (by rw [List.append_nil])
  | append_singleton more b ih =>
    rw [← List.append_assoc, decimal_append]
    omega

theorem fieldsFrom_bound {digits params : List UInt8}
    (h : ∀ field ∈ fieldsFrom digits params, decimal field.1 < 2 ^ 31 - 1) :
    decimal digits < 2 ^ 31 - 1 := by
  obtain ⟨more, flag, rest, heq⟩ := fieldsFrom_head digits params
  have hfield := h (digits ++ more, flag) (by rw [heq]; exact List.mem_cons_self)
  exact Nat.lt_of_le_of_lt (decimal_le_append digits more) hfield

theorem fieldValue_lt {digits : List UInt8} (h : decimal digits < 2 ^ 31 - 1) :
    fieldValue digits < 2 ^ 31 := by
  unfold fieldValue csiArgMissing
  split_ifs <;> omega

/-- One more digit of a field. -/
theorem addDigit_fieldValue {digits : List UInt8} {b : UInt8}
    (h : decimal (digits ++ [b]) < 2 ^ 31 - 1) :
    addDigit (fieldValue digits) b = fieldValue (digits ++ [b]) := by
  have hbefore := decimal_le_append digits [b]
  have hvalue : (if fieldValue digits = csiArgMissing then 0 else fieldValue digits) =
      decimal digits := by
    unfold fieldValue csiArgMissing
    by_cases hempty : digits = []
    · rw [if_pos hempty, if_pos rfl, hempty]
      rfl
    · rw [if_neg hempty, if_neg (by omega)]
  unfold addDigit
  rw [hvalue]
  rw [decimal_append] at h
  unfold fieldValue
  rw [if_neg (by simp), decimal_append, Nat.mod_eq_of_lt (by omega)]

theorem length_fieldsFrom (digits params : List UInt8) :
    (fieldsFrom digits params).length = params.countP isSeparator + 1 := by
  induction params generalizing digits with
  | nil => rfl
  | cons b params ih =>
    unfold fieldsFrom
    split
    · rename_i hsep
      rw [List.length_cons, ih, List.countP_cons_of_pos hsep]
    · rename_i hsep
      rw [ih, List.countP_cons_of_neg hsep]

/-! The loop over digits and separators. -/

theorem parseArgs_full {argcount argi : ℕ} (bytes : List UInt8) (args : List ℕ)
    (h : argcount ≤ argi) : parseArgs argcount bytes argi args = (args, bytes) := by
  cases bytes with
  | nil => rfl
  | cons b bytes => rw [parseArgs, if_pos h]

theorem parseArgs_intermed (argcount argi : ℕ) (args : List ℕ) {intermed : List UInt8}
    (h : ∀ b ∈ intermed, 0x20 ≤ b ∧ b ≤ 0x2f) :
    parseArgs argcount intermed argi args = (args, intermed) := by
  cases intermed with
  | nil => rfl
  | cons b intermed =>
    obtain ⟨-, hhigh⟩ := h b List.mem_cons_self
    have hdigit : ¬ (0x30 ≤ b ∧ b ≤ 0x39) := by
      rw [UInt8.le_iff_toNat_le] at *
      simp at *
      omega
    have hcolon : b ≠ 0x3a := by
      rintro rfl
      exact absurd hhigh (by decide)
    have hsemicolon : b ≠ 0x3b := by
      rintro rfl
      exact absurd hhigh (by decide)
    rw [parseArgs, if_neg hdigit, if_neg hcolon, if_neg hsemicolon, ite_self]

section At
variable {α : Type*} (done rest : List α) (x y : α)

theorem set_at : (done ++ x :: rest).set done.length y = done ++ y :: rest := by
  rw [List.set_append_right _ _ (Nat.le_refl _), Nat.sub_self, List.set_cons_zero]

theorem getD_at : (done ++ x :: rest).getD done.length y = x := by
  rw [List.getD_append_right _ _ _ _ (Nat.le_refl _), Nat.sub_self]
  rfl

end At

theorem parseArgs_digit {argcount : ℕ} {done rest : List ℕ} {digits bytes : List UInt8} {b : UInt8}
    (hcount : done.length < argcount) (hb : 0x30 ≤ b ∧ b ≤ 0x39)
    (h : decimal (digits ++ [b]) < 2 ^ 31 - 1) :
    parseArgs argcount (b :: bytes) done.length (done ++ fieldValue digits :: rest) =
      parseArgs argcount bytes done.length (done ++ fieldValue (digits ++ [b]) :: rest) := by
  rw [parseArgs, if_neg (Nat.not_le.mpr hcount), if_pos hb, getD_at, set_at, addDigit_fieldValue h]

theorem parseArgs_separator {argcount : ℕ} {done rest : List ℕ} {digits bytes : List UInt8}
    {b : UInt8} (hcount : done.length < argcount) (hb : isSeparator b = true)
    (h : decimal digits < 2 ^ 31 - 1) :
    parseArgs argcount (b :: bytes) done.length (done ++ fieldValue digits :: rest) =
      parseArgs argcount bytes (done ++ [fieldArg (digits, decide (b = 0x3a))]).length
        (done ++ [fieldArg (digits, decide (b = 0x3a))] ++ rest) := by
  have hvalue := fieldValue_lt h
  have hlength : (done ++ [fieldArg (digits, decide (b = 0x3a))]).length = done.length + 1 := by
    rw [List.length_append, List.length_singleton]
  rw [hlength, List.append_assoc, List.singleton_append, parseArgs,
    if_neg (Nat.not_le.mpr hcount)]
  rcases of_decide_eq_true hb with rfl | rfl
  · rfl
  · rw [if_neg (by decide), if_pos rfl, getD_at, set_at, Nat.mod_eq_of_lt hvalue]
    rfl

theorem digit_of_param {b : UInt8} (hb : 0x30 ≤ b ∧ b ≤ 0x3b) (hsep : ¬ isSeparator b = true) :
    0x30 ≤ b ∧ b ≤ 0x39 := by
  obtain ⟨hsemicolon, hcolon⟩ := not_or.mp fun h => hsep (decide_eq_true h)
  grind

/-- With the fields before the present one done, the loop does the others that have room. -/
theorem parseArgs_fieldsFrom (done : List ℕ) (k : ℕ) (digits : List UInt8)
    {params intermed : List UInt8}
    (hparams : ∀ b ∈ params, 0x30 ≤ b ∧ b ≤ 0x3b) (hintermed : ∀ b ∈ intermed, 0x20 ≤ b ∧ b ≤ 0x2f)
    (hvalues : ∀ field ∈ fieldsFrom digits params, decimal field.1 < 2 ^ 31 - 1)
    (hfields : k < (fieldsFrom digits params).length) :
    parseArgs (done.length + k + 1) (params ++ intermed) done.length
        (done ++ fieldValue digits :: List.replicate k csiArgMissing) =
      (done ++ ((fieldsFrom digits params).take (k + 1)).map fieldArg,
        behindSeparators (k + 1) params ++ intermed) := by
  induction params generalizing done k digits with
  | nil =>
    have hk : k = 0 := Nat.lt_one_iff.mp hfields
    rw [hk, List.nil_append, parseArgs_intermed _ _ _ hintermed]
    rfl
  | cons b params ih =>
    have hrest : ∀ b ∈ params, 0x30 ≤ b ∧ b ≤ 0x3b := fun b hb =>
      hparams b (List.mem_cons_of_mem _ hb)
    rw [fieldsFrom] at hvalues hfields ⊢
    rw [List.cons_append, behindSeparators]
    by_cases hsep : isSeparator b = true
    · rw [if_pos hsep] at hvalues hfields ⊢
      have hvalue : decimal digits < 2 ^ 31 - 1 := hvalues _ List.mem_cons_self
      rw [if_pos hsep, parseArgs_separator (by omega) hsep hvalue]
      cases k with
      | zero =>
        rw [parseArgs_full _ _ (by simp)]
        simp [behindSeparators]
      | succ k =>
        have hnext := ih (done ++ [fieldArg (digits, decide (b = 0x3a))]) k [] hrest
          (fun field hfield => hvalues field (List.mem_cons_of_mem _ hfield))
          (Nat.lt_of_succ_lt_succ hfields)
        have hcount : (done ++ [fieldArg (digits, decide (b = 0x3a))]).length + k + 1 =
            done.length + (k + 1) + 1 := by
          rw [List.length_append, List.length_singleton]
          omega
        have hmissing : fieldValue [] = csiArgMissing := rfl
        rw [hcount, hmissing] at hnext
        rw [List.replicate_succ, hnext, List.take_succ_cons, List.map_cons, List.append_assoc]
        rfl
    · have hdigit := digit_of_param (hparams b List.mem_cons_self) hsep
      rw [if_neg hsep] at hvalues hfields ⊢
      rw [if_neg hsep, parseArgs_digit (by omega) hdigit (fieldsFrom_bound hvalues)]
      exact ih done k _ hrest hvalues hfields

/-- The mask of the last pass picks out the intermediate bytes. -/
theorem mask_intermed_iff (b : UInt8) : b &&& 0xf0 = 0x20 ↔ 0x20 ≤ b ∧ b ≤ 0x2f := by
  have hall : ∀ n : Fin 256, UInt8.ofNat n &&& 0xf0 = 0x20 ↔
      0x20 ≤ UInt8.ofNat n ∧ UInt8.ofNat n ≤ 0x2f := by decide +kernel
  have hb := hall ⟨b.toNat, b.toNat_lt⟩
  rwa [UInt8.ofNat_toNat] at hb

theorem behindSeparators_of_few {n : ℕ} {params : List UInt8} (h : params.countP isSeparator < n) :
    behindSeparators n params = [] := by
  induction params generalizing n with
  | nil =>
    cases n with
    | zero => exact absurd h (Nat.not_lt_zero _)
    | succ n => rfl
  | cons b params ih =>
    cases n with
    | zero => exact absurd h (Nat.not_lt_zero _)
    | succ n =>
      rw [behindSeparators]
      by_cases hsep : isSeparator b = true
      · rw [List.countP_cons_of_pos hsep] at h
        rw [if_pos hsep]
        exact ih (Nat.lt_of_succ_lt_succ h)
      · rw [List.countP_cons_of_neg hsep] at h
        rw [if_neg hsep]
        exact ih h

theorem mem_of_mem_behindSeparators {n : ℕ} {params : List UInt8} {b : UInt8}
    (h : b ∈ behindSeparators n params) : b ∈ params := by
  induction params generalizing n with
  | nil =>
    cases n with
    | zero => exact h
    | succ n => exact h
  | cons c params ih =>
    cases n with
    | zero => exact h
    | succ n =>
      rw [behindSeparators] at h
      split at h
      · exact List.mem_cons_of_mem _ (ih h)
      · exact List.mem_cons_of_mem _ (ih h)

namespace ControlSequence

variable (seq : ControlSequence)

theorem leader_isLeader : ∀ b ∈ seq.leader, isLeader b = true := fun b hb =>
  decide_eq_true (seq.leader_bytes b hb)

/-- What follows the leader begins with no leader byte. -/
theorem head_not_leader {b : UInt8} (hb : b ∈ seq.params ++ seq.intermed) :
    ¬ isLeader b = true := by
  intro hleader
  have hlow := (of_decide_eq_true hleader).1
  rcases List.mem_append.mp hb with hparam | hintermed
  · have hhigh := (seq.params_bytes b hparam).2
    grind
  · have hhigh := (seq.intermed_bytes b hintermed).2
    grind

theorem takeWhile_leader : seq.text.takeWhile isLeader = seq.leader := by
  have hrest : (seq.params ++ seq.intermed).takeWhile isLeader = [] := by
    cases hbody : seq.params ++ seq.intermed with
    | nil => rfl
    | cons b body =>
      have hnot := seq.head_not_leader (b := b) (by rw [hbody]; exact List.mem_cons_self)
      exact List.takeWhile_cons_of_neg hnot
  unfold text
  rw [List.append_assoc, List.takeWhile_append_of_pos seq.leader_isLeader, hrest, List.append_nil]

theorem dropWhile_leader : seq.text.dropWhile isLeader = seq.params ++ seq.intermed := by
  have hsplit := List.takeWhile_append_dropWhile (p := isLeader) (l := seq.text)
  rw [seq.takeWhile_leader] at hsplit
  unfold text at hsplit ⊢
  rw [List.append_assoc] at hsplit ⊢
  exact List.append_cancel_left hsplit

theorem countP_separators :
    (seq.params ++ seq.intermed).countP isSeparator = seq.params.countP isSeparator := by
  have hnone : seq.intermed.countP isSeparator = 0 := by
    rw [List.countP_eq_zero]
    intro b hb hsep
    have hhigh := (seq.intermed_bytes b hb).2
    rcases of_decide_eq_true hsep with rfl | rfl
    · exact absurd hhigh (by decide)
    · exact absurd hhigh (by decide)
  rw [List.countP_append, hnone, Nat.add_zero]

/-- What the last pass takes for intermediate bytes. -/
def readIntermed : List UInt8 :=
  ((behindSeparators csiArgsMax seq.params ++ seq.intermed).takeWhile
    fun b => b &&& 0xf0 = 0x20).take csiIntermedMax

/-- With the leader in its array, all else but the intermediate bytes is as the sequence has it. -/
theorem parseCsi_text (h : seq.leader.length ≤ csiLeaderMax) :
    parseCsi seq.text seq.final = ⟨seq.leader, seq.args, seq.readIntermed, seq.final⟩ := by
  have hleader : (seq.text.takeWhile isLeader).take csiLeaderMax = seq.leader := by
    rw [seq.takeWhile_leader, List.take_of_length_le h]
  have hdrop : seq.text.drop seq.leader.length = seq.params ++ seq.intermed := by
    unfold text
    rw [List.append_assoc, List.drop_left]
  have hcount : (seq.text.dropWhile isLeader).countP (fun b => b = 0x3b ∨ b = 0x3a) =
      seq.params.countP isSeparator := by
    rw [seq.dropWhile_leader]
    exact seq.countP_separators
  have hargcount : min (1 + seq.params.countP isSeparator) csiArgsMax =
      ([] : List ℕ).length + min (seq.params.countP isSeparator) 15 + 1 := by
    unfold csiArgsMax
    rw [List.length_nil]
    omega
  have hfields := length_fieldsFrom [] seq.params
  have hparse := parseArgs_fieldsFrom [] (min (seq.params.countP isSeparator) 15) []
    seq.params_bytes seq.intermed_bytes seq.values (by omega)
  have hargs : (fieldsFrom [] seq.params).take (min (seq.params.countP isSeparator) 15 + 1) =
      (fields seq.params).take csiArgsMax := by
    unfold fields csiArgsMax
    rw [List.take_eq_take_iff]
    omega
  have hbehind : behindSeparators (min (seq.params.countP isSeparator) 15 + 1) seq.params =
      behindSeparators csiArgsMax seq.params := by
    unfold csiArgsMax
    by_cases hmany : 15 ≤ seq.params.countP isSeparator
    · rw [Nat.min_eq_right hmany]
    · rw [behindSeparators_of_few (by omega), behindSeparators_of_few (by omega)]
  have hinitial : List.replicate
      (([] : List ℕ).length + min (seq.params.countP isSeparator) 15 + 1) csiArgMissing =
        [] ++ fieldValue [] ::
          List.replicate (min (seq.params.countP isSeparator) 15) csiArgMissing := by
    rw [List.replicate_succ, List.length_nil, Nat.zero_add]
    rfl
  rw [hargs, hbehind] at hparse
  unfold parseCsi
  simp only [hleader, hcount, hargcount, hdrop, hinitial]
  rw [List.length_nil] at hparse ⊢
  rw [hparse]
  rfl

/-- Parameters that are left over end the last pass at once. -/
theorem readIntermed_eq_iff : seq.readIntermed = seq.intermed ↔
    seq.intermed.length ≤ csiIntermedMax ∧
      (seq.intermed = [] ∨ behindSeparators csiArgsMax seq.params = []) := by
  unfold readIntermed
  cases hbehind : behindSeparators csiArgsMax seq.params with
  | nil =>
    have hall : (([] : List UInt8) ++ seq.intermed).takeWhile (fun b => b &&& 0xf0 = 0x20) =
        seq.intermed := by
      rw [List.nil_append, List.takeWhile_eq_self_iff]
      intro b hb
      exact decide_eq_true ((mask_intermed_iff b).mpr (seq.intermed_bytes b hb))
    rw [hall, List.take_eq_self_iff]
    exact ⟨fun h => ⟨h, Or.inr rfl⟩, fun h => h.1⟩
  | cons b behind =>
    have hb := seq.params_bytes b (mem_of_mem_behindSeparators (by
      rw [hbehind]
      exact List.mem_cons_self))
    have hnone : (b :: behind ++ seq.intermed).takeWhile (fun b => b &&& 0xf0 = 0x20) = [] := by
      apply List.takeWhile_cons_of_neg
      rw [decide_eq_true_eq, mask_intermed_iff]
      grind
    rw [hnone, List.take_nil]
    constructor
    · intro h
      rw [← h]
      exact ⟨Nat.zero_le _, Or.inl rfl⟩
    · rintro ⟨-, hnil | hnil⟩
      · exact hnil.symm
      · cases hnil

/-- do_string_csi decodes exactly the sequences that fit. -/
theorem decoded_iff_fits : seq.Decoded ↔ seq.Fits := by
  have hleader : seq.Decoded → seq.leader.length ≤ csiLeaderMax := by
    intro h
    have htake : (seq.text.takeWhile isLeader).take csiLeaderMax = seq.leader :=
      congrArg CsiSequence.leader h
    rw [seq.takeWhile_leader, List.take_eq_self_iff] at htake
    exact htake
  constructor
  · intro h
    have hintermed := congrArg CsiSequence.intermed h
    rw [seq.parseCsi_text (hleader h)] at hintermed
    exact ⟨hleader h, seq.readIntermed_eq_iff.mp hintermed⟩
  · rintro ⟨hfits, hintermed⟩
    unfold Decoded
    rw [seq.parseCsi_text hfits, seq.readIntermed_eq_iff.mpr hintermed]

end ControlSequence

end Jterm.Vterm
