import Mathlib.Data.List.GetD
import Jterm.Ssh.KexInit

/-!
What kex_agree_methods makes of a well formed KEXINIT. On the lists of names the choice is
a search for the first name of the session that the server has too; on the packet it is
the same, because every list has the length of the next one behind it, which begins with
a zero.
-/
namespace Jterm.Ssh.Kex

open Transport

def IsName (name : Name) : Prop := name ≠ [] ∧ comma ∉ name ∧ 0 ∉ name

instance : DecidablePred IsName := fun _ => inferInstanceAs (Decidable (_ ∧ _))

/-- The names behind the first one. -/
def behind (names : List Name) : List UInt8 := names.flatMap fun name => comma :: name

/-- A list of names as it is sent. -/
def joined : List Name → List UInt8
  | [] => []
  | name :: names => name ++ behind names

theorem behind_cons (name : Name) (names : List Name) :
    behind (name :: names) = comma :: (name ++ behind names) := rfl

/-! The search for one name. -/

/-- What lies behind a list stops strchr. -/
def Stops (rest : List UInt8) : Prop := rest.getD 0 0 = 0

theorem atName_iff {name needle : Name} (hname : IsName name) (hneedle : IsName needle)
    {names : List Name} {rest : List UInt8} (hrest : Stops rest) {pos len : ℕ}
    (hlen : len = pos + (name.length + (behind names).length)) :
    atName len needle pos (name ++ (behind names ++ rest)) = true ↔ needle = name := by
  obtain ⟨-, hcomma, hzero⟩ := hneedle
  unfold atName
  simp only [Bool.and_eq_true, Bool.or_eq_true, beq_iff_eq]
  constructor
  · intro h
    obtain ⟨htake, hend⟩ := h
    rcases Nat.lt_trichotomy needle.length name.length with hshort | hsame | hlong
    · -- the byte behind the needle is one of the name's
      exfalso
      have hinside : (name ++ (behind names ++ rest)).getD needle.length 0 ∈ name := by
        rw [List.getD_append _ _ _ _ hshort, List.getD_eq_getElem _ _ hshort]
        exact List.getElem_mem hshort
      rcases hend with hall | hsep
      · omega
      · rw [hsep] at hinside
        exact hname.2.1 hinside
    · rw [hsame, List.take_left] at htake
      exact htake.symm
    · -- the byte behind the name is one of the needle's
      exfalso
      have hbyte : (behind names ++ rest).getD 0 0 ∈ needle := by
        have hat : needle.getD name.length 0 = (behind names ++ rest).getD 0 0 := by
          rw [← htake, List.getD_eq_getElem?_getD, List.getElem?_take_of_lt hlong,
            List.getElem?_append_right le_rfl, Nat.sub_self, ← List.getD_eq_getElem?_getD]
        rw [← hat, List.getD_eq_getElem _ _ hlong]
        exact List.getElem_mem hlong
      cases names with
      | nil =>
        rw [show behind [] ++ rest = rest from rfl, hrest] at hbyte
        exact hzero hbyte
      | cons next names =>
        rw [behind_cons] at hbyte
        exact hcomma hbyte
  · intro h
    subst h
    refine ⟨List.take_left, ?_⟩
    cases names with
    | nil =>
      refine .inl ?_
      rw [hlen]
      rfl
    | cons next names =>
      refine .inr ?_
      rw [List.getD_append_right _ _ _ _ le_rfl, Nat.sub_self, behind_cons]
      rfl

/-- No name begins within a name. -/
theorem instrLoop_name {name : Name} (hcomma : comma ∉ name) (hzero : 0 ∉ name) (len : ℕ)
    (needle : Name) (pos : ℕ) (s : List UInt8) :
    instrLoop len needle pos (name ++ s) = instrLoop len needle (pos + name.length) s := by
  induction name generalizing pos with
  | nil => rfl
  | cons c name ih =>
    rw [List.mem_cons, not_or] at hcomma hzero
    rw [List.cons_append, instrLoop, if_neg (Ne.symm hcomma.1), if_neg (Ne.symm hzero.1),
      ih hcomma.2 hzero.2, List.length_cons]
    congr 1
    omega

theorem length_lt_behind {needle : Name} {names : List Name} (h : needle ∈ names) :
    needle.length < (behind names).length := by
  induction names with
  | nil => cases h
  | cons name names ih =>
    rw [behind_cons, List.length_cons, List.length_append]
    rcases List.mem_cons.mp h with rfl | hlater
    · omega
    · have := ih hlater
      omega

theorem instrLoop_iff {needle : Name} (hneedle : IsName needle) {names : List Name}
    (hnames : ∀ name ∈ names, IsName name) {rest : List UInt8} (hrest : Stops rest) {pos len : ℕ}
    (hlen : len = pos + (behind names).length) (hlt : len < 2 ^ 32) :
    (instrLoop len needle pos (behind names ++ rest)).isSome = true ↔ needle ∈ names := by
  induction names generalizing pos with
  | nil =>
    have hnone : instrLoop len needle pos (behind [] ++ rest) = none := by
      change instrLoop len needle pos rest = none
      cases rest with
      | nil => rfl
      | cons c rest =>
        have hc : c = 0 := hrest
        rw [instrLoop, hc, if_neg (by decide), if_pos rfl]
    simp [hnone]
  | cons name names ih =>
    have hname := hnames name List.mem_cons_self
    have hbehind : (behind (name :: names)).length = 1 + name.length + (behind names).length := by
      rw [behind_cons, List.length_cons, List.length_append]
      omega
    have hsize : toSize (len - pos) = 1 + name.length + (behind names).length := by
      unfold toSize
      omega
    rw [hbehind] at hlen
    rw [behind_cons, List.cons_append, List.append_assoc, instrLoop, if_pos rfl, hsize]
    by_cases hfew : 1 + name.length + (behind names).length ≤ needle.length
    · rw [if_pos hfew]
      have hnot : needle ∉ name :: names := by
        intro hmem
        have hlonger := length_lt_behind hmem
        omega
      simp [hnot]
    · rw [if_neg hfew]
      have hhere : atName len needle (pos + 1) (name ++ (behind names ++ rest)) = true ↔
          needle = name := atName_iff hname hneedle hrest (by omega)
      by_cases hfound : needle = name
      · rw [if_pos (hhere.mpr hfound)]
        simp [hfound]
      · rw [if_neg fun h => hfound (hhere.mp h), instrLoop_name hname.2.1 hname.2.2,
          ih (fun n hn => hnames n (List.mem_cons_of_mem name hn)) (by omega)]
        simp [hfound]

/-- A name is found exactly when it is one of the list's. -/
theorem kexAgreeInstr_iff {needle : Name} (hneedle : IsName needle) {names : List Name}
    (hnames : ∀ name ∈ names, IsName name) {rest : List UInt8} (hrest : Stops rest)
    (hlt : (joined names).length < 2 ^ 32) :
    (kexAgreeInstr (joined names ++ rest) (joined names).length needle).isSome = true ↔
      needle ∈ names := by
  unfold kexAgreeInstr
  cases names with
  | nil =>
    have hpos : (joined []).length < needle.length := List.length_pos_iff.mpr hneedle.1
    rw [if_pos hpos]
    simp
  | cons name names =>
    have hname := hnames name List.mem_cons_self
    have hothers : ∀ n ∈ names, IsName n := fun n hn => hnames n (List.mem_cons_of_mem name hn)
    have hlen : (joined (name :: names)).length = name.length + (behind names).length :=
      List.length_append
    rw [hlen] at hlt
    rw [hlen]
    change (if _ then _ else if atName _ needle 0 (name ++ behind names ++ rest) then _ else
      instrLoop _ needle 0 (name ++ behind names ++ rest)).isSome = true ↔ _
    rw [List.append_assoc]
    by_cases hfew : name.length + (behind names).length < needle.length
    · rw [if_pos hfew]
      have hnot : needle ∉ name :: names := by
        intro hmem
        rcases List.mem_cons.mp hmem with rfl | hlater
        · omega
        · have hlonger := length_lt_behind hlater
          omega
      simp [hnot]
    · rw [if_neg hfew]
      have hhere : atName (name.length + (behind names).length) needle 0
          (name ++ (behind names ++ rest)) = true ↔ needle = name :=
        atName_iff hname hneedle hrest (by omega)
      by_cases hfound : needle = name
      · rw [if_pos (hhere.mpr hfound)]
        simp [hfound]
      · rw [if_neg fun h => hfound (hhere.mp h), instrLoop_name hname.2.1 hname.2.2, Nat.zero_add,
          instrLoop_iff hneedle hothers hrest rfl hlt]
        simp [hfound]

end Jterm.Ssh.Kex
