import Jterm.Vterm.Encoding
import Mathlib.Data.Nat.Basic
import Mathlib.Tactic.Ring

/-!
Code points and their bytes. utf8.h writes a code point, encoding.c reads the bytes back; the
decoder reports every sequence that utf8.h would not write as U+FFFD.
-/
namespace Jterm.Vterm

def utf8Seqlen (codepoint : ℕ) : ℕ :=
  if codepoint < 0x80 then 1
  else if codepoint < 0x800 then 2
  else if codepoint < 0x10000 then 3
  else if codepoint < 0x200000 then 4
  else if codepoint < 0x4000000 then 5
  else 6

/-- The bytes behind the first, from the last one on. -/
def fillTail : ℕ → ℕ → List UInt8
  | 0, _ => []
  | b + 1, codepoint => fillTail b (codepoint / 64) ++ [(0x80 + codepoint % 64).toUInt8]

/-- The first byte; `codepoint` is what the others have left of it. -/
def fillHead (nbytes codepoint : ℕ) : UInt8 :=
  if nbytes = 1 then (codepoint % 0x80).toUInt8
  else if nbytes = 2 then (0xc0 + codepoint % 0x20).toUInt8
  else if nbytes = 3 then (0xe0 + codepoint % 0x10).toUInt8
  else if nbytes = 4 then (0xf0 + codepoint % 0x08).toUInt8
  else if nbytes = 5 then (0xf8 + codepoint % 0x04).toUInt8
  else (0xfc + codepoint % 0x02).toUInt8

/-- `fill_utf8` -/
def fillUtf8 (codepoint : ℕ) : List UInt8 :=
  let nbytes := utf8Seqlen codepoint
  fillHead nbytes (codepoint / 64 ^ (nbytes - 1)) :: fillTail (nbytes - 1) codepoint

/-- The code points the decoder lets through: up to 31 bits, no C0 control, no surrogate and not
one of the two that are no characters. -/
def IsText (codepoint : ℕ) : Prop :=
  0x20 ≤ codepoint ∧ codepoint < 2 ^ 31 ∧ ¬ (0xd800 ≤ codepoint ∧ codepoint ≤ 0xdfff) ∧
    codepoint ≠ 0xfffe ∧ codepoint ≠ 0xffff

instance : DecidablePred IsText := fun _ => inferInstanceAs (Decidable (_ ∧ _))

/-- The least code point that takes so many bytes, and what is above all of them. -/
def seqStart : ℕ → ℕ
  | 2 => 0x80
  | 3 => 0x800
  | 4 => 0x10000
  | 5 => 0x200000
  | 6 => 0x4000000
  | _ => 0

def seqEnd : ℕ → ℕ
  | 1 => 0x80
  | 2 => 0x800
  | 3 => 0x10000
  | 4 => 0x200000
  | 5 => 0x4000000
  | _ => 2 ^ 31

theorem utf8Seqlen_bounds {cp : ℕ} (h : cp < 2 ^ 31) :
    1 ≤ utf8Seqlen cp ∧ utf8Seqlen cp ≤ 6 ∧ seqStart (utf8Seqlen cp) ≤ cp ∧
      cp < seqEnd (utf8Seqlen cp) := by
  unfold utf8Seqlen
  split_ifs
  all_goals
    simp only [seqStart, seqEnd]
    omega

theorem utf8Seqlen_eq {cp n : ℕ} (hn : 2 ≤ n ∧ n ≤ 6) (hstart : seqStart n ≤ cp)
    (hend : cp < seqEnd n) : utf8Seqlen cp = n := by
  obtain ⟨hlow, hhigh⟩ := hn
  have hcases : n = 2 ∨ n = 3 ∨ n = 4 ∨ n = 5 ∨ n = 6 := by omega
  unfold utf8Seqlen
  rcases hcases with rfl | rfl | rfl | rfl | rfl
  all_goals
    simp only [seqStart, seqEnd] at hstart hend
    split_ifs <;> omega

/-- A sequence that is long enough and in range is not changed. -/
theorem checkCp_eq {n cp : ℕ} (hn : 2 ≤ n ∧ n ≤ 6) (hstart : seqStart n ≤ cp) (htext : IsText cp) :
    checkCp n cp = cp := by
  obtain ⟨hlow, hhigh⟩ := hn
  obtain ⟨-, -, hsurrogate, hfffe, hffff⟩ := htext
  have hcases : n = 2 ∨ n = 3 ∨ n = 4 ∨ n = 5 ∨ n = 6 := by omega
  have hlong : checkCp n cp =
      if (0xd800 ≤ cp ∧ cp ≤ 0xdfff) ∨ cp = 0xfffe ∨ cp = 0xffff then unicodeInvalid else cp := by
    unfold checkCp
    rcases hcases with rfl | rfl | rfl | rfl | rfl
    all_goals
      simp only [seqStart] at hstart
      simp [show ¬ cp < _ from Nat.not_lt.mpr hstart]
  rw [hlong, if_neg (by omega)]

/-- What is not reported as invalid was long enough. -/
theorem checkCp_valid {n cp : ℕ} (hn : 2 ≤ n ∧ n ≤ 6) (h : checkCp n cp ≠ unicodeInvalid) :
    checkCp n cp = cp ∧ seqStart n ≤ cp ∧ ¬ (0xd800 ≤ cp ∧ cp ≤ 0xdfff) ∧ cp ≠ 0xfffe ∧
      cp ≠ 0xffff := by
  obtain ⟨hlow, hhigh⟩ := hn
  have hcases : n = 2 ∨ n = 3 ∨ n = 4 ∨ n = 5 ∨ n = 6 := by omega
  unfold checkCp unicodeInvalid at *
  rcases hcases with rfl | rfl | rfl | rfl | rfl
  all_goals
    simp only [decide_eq_true_eq, seqStart] at h ⊢
    split_ifs at h ⊢ <;> simp_all

/-! One byte at a time. -/

theorem toUInt8_toNat {n : ℕ} (h : n < 256) : n.toUInt8.toNat = n := by
  rw [Nat.toUInt8, UInt8.toNat_ofNat']
  omega

theorem decodeByte_utf8 (data : UTF8DecoderData) (byte : UInt8) :
    decodeByte ⟨.utf8, data⟩ byte = (decodeUtf8Byte data byte).map fun found =>
      (found.1, ⟨.utf8, found.2⟩) := rfl

theorem decode_singleton {inst next : VTermEncodingInstance} {byte : UInt8} {cps : List ℕ}
    (h : decodeByte inst byte = some (cps, next)) : decode inst [byte] = (cps, 1, next) := by
  rw [decode_cons_some h]
  simp [decode]

theorem decodeByte_tail (data : UTF8DecoderData) {r v : ℕ} (hdata : data.bytesRemaining = r + 2) :
    decodeByte ⟨.utf8, data⟩ (0x80 + v % 64).toUInt8 =
      some ([], ⟨.utf8, { data with
        bytesRemaining := r + 1, thisCp := data.thisCp * 64 + v % 64 }⟩) := by
  have hbyte : (0x80 + v % 64).toUInt8.toNat = 0x80 + v % 64 := toUInt8_toNat (by omega)
  have hlow : (0x80 + v % 64) % 64 = v % 64 := by omega
  rw [decodeByte_utf8]
  unfold decodeUtf8Byte
  simp only [hbyte, hdata, hlow]
  rw [if_neg (by omega), if_neg (by omega), if_pos (by omega), if_neg (by omega),
    if_neg (by omega)]
  rfl

theorem decodeByte_last (data : UTF8DecoderData) {v : ℕ} (hdata : data.bytesRemaining = 1) :
    decodeByte ⟨.utf8, data⟩ (0x80 + v % 64).toUInt8 =
      some ([checkCp data.bytesTotal (data.thisCp * 64 + v % 64)], ⟨.utf8, { data with
        bytesRemaining := 0
        thisCp := checkCp data.bytesTotal (data.thisCp * 64 + v % 64) }⟩) := by
  have hbyte : (0x80 + v % 64).toUInt8.toNat = 0x80 + v % 64 := toUInt8_toNat (by omega)
  have hlow : (0x80 + v % 64) % 64 = v % 64 := by omega
  rw [decodeByte_utf8]
  unfold decodeUtf8Byte
  simp only [hbyte, hdata, hlow]
  rw [if_neg (by omega), if_neg (by omega), if_pos (by omega), if_neg (by omega), if_pos trivial]
  rfl

theorem length_fillTail (b cp : ℕ) : (fillTail b cp).length = b := by
  induction b generalizing cp with
  | zero => rfl
  | succ b ih => rw [fillTail, List.length_append, ih, List.length_singleton]

/-- The value that the bytes in front of the last one add up to. -/
theorem decode_fillTail (b : ℕ) (data : UTF8DecoderData) {r : ℕ} (cp : ℕ)
    (hdata : data.bytesRemaining = r + 1 + b) :
    decode ⟨.utf8, data⟩ (fillTail b cp) =
      ([], b, ⟨.utf8, { data with
        bytesRemaining := r + 1, thisCp := data.thisCp * 64 ^ b + cp % 64 ^ b }⟩) := by
  induction b generalizing r cp with
  | zero => simp [fillTail, decode, Nat.mod_one, ← hdata]
  | succ b ih =>
    have hfirst := ih (r := r + 1) (cp / 64) (by omega)
    have hlast := decodeByte_tail { data with
        bytesRemaining := r + 1 + 1, thisCp := data.thisCp * 64 ^ b + cp / 64 % 64 ^ b }
      (r := r) (v := cp) rfl
    have hvalue : (data.thisCp * 64 ^ b + cp / 64 % 64 ^ b) * 64 + cp % 64 =
        data.thisCp * 64 ^ (b + 1) + cp % 64 ^ (b + 1) := by
      rw [Nat.pow_succ', Nat.mod_mul]
      ring
    rw [fillTail, decode_append _ (by rw [hfirst, length_fillTail]), hfirst,
      decode_singleton hlast, hvalue, length_fillTail]
    rfl

/-- A first byte of several opens a sequence; what was open before is lost. -/
theorem decodeByte_head (data : UTF8DecoderData) {n v : ℕ} (hn : 2 ≤ n ∧ n ≤ 6) :
    decodeByte ⟨.utf8, data⟩ (fillHead n v) = some
      (if data.bytesRemaining ≠ 0 then [unicodeInvalid] else [], ⟨.utf8,
        { bytesRemaining := n - 1, bytesTotal := n, thisCp := v % 2 ^ (7 - n) }⟩) := by
  obtain ⟨hlow, hhigh⟩ := hn
  have hcases : n = 2 ∨ n = 3 ∨ n = 4 ∨ n = 5 ∨ n = 6 := by omega
  rw [decodeByte_utf8]
  unfold decodeUtf8Byte startCp
  rcases hcases with rfl | rfl | rfl | rfl | rfl
  · have hbyte : (fillHead 2 v).toNat = 0xc0 + v % 0x20 := toUInt8_toNat (by omega)
    have hbits : (0xc0 + v % 0x20) % 32 = v % 2 ^ (7 - 2) := by omega
    simp only [hbyte, hbits]
    rw [if_neg (by omega), if_neg (by omega), if_neg (by omega), if_pos (by omega)]
    rfl
  · have hbyte : (fillHead 3 v).toNat = 0xe0 + v % 0x10 := toUInt8_toNat (by omega)
    have hbits : (0xe0 + v % 0x10) % 16 = v % 2 ^ (7 - 3) := by omega
    simp only [hbyte, hbits]
    rw [if_neg (by omega), if_neg (by omega), if_neg (by omega), if_neg (by omega),
      if_pos (by omega)]
    rfl
  · have hbyte : (fillHead 4 v).toNat = 0xf0 + v % 0x08 := toUInt8_toNat (by omega)
    have hbits : (0xf0 + v % 0x08) % 8 = v % 2 ^ (7 - 4) := by omega
    simp only [hbyte, hbits]
    rw [if_neg (by omega), if_neg (by omega), if_neg (by omega), if_neg (by omega),
      if_neg (by omega), if_pos (by omega)]
    rfl
  · have hbyte : (fillHead 5 v).toNat = 0xf8 + v % 0x04 := toUInt8_toNat (by omega)
    have hbits : (0xf8 + v % 0x04) % 4 = v % 2 ^ (7 - 5) := by omega
    simp only [hbyte, hbits]
    rw [if_neg (by omega), if_neg (by omega), if_neg (by omega), if_neg (by omega),
      if_neg (by omega), if_neg (by omega), if_pos (by omega)]
    rfl
  · have hbyte : (fillHead 6 v).toNat = 0xfc + v % 0x02 := toUInt8_toNat (by omega)
    have hbits : (0xfc + v % 0x02) % 2 = v % 2 ^ (7 - 6) := by omega
    simp only [hbyte, hbits]
    rw [if_neg (by omega), if_neg (by omega), if_neg (by omega), if_neg (by omega),
      if_neg (by omega), if_neg (by omega), if_neg (by omega), if_pos (by omega)]
    rfl

/-- A decoder between two code points. -/
def Ready (inst : VTermEncodingInstance) : Prop :=
  inst.enc = .utf8 ∧ inst.data.bytesRemaining = 0

instance : DecidablePred Ready := fun _ => inferInstanceAs (Decidable (_ ∧ _))

/-- The value in the first byte of a sequence. -/
theorem seqEnd_head {n cp : ℕ} (hn : 2 ≤ n ∧ n ≤ 6) (hend : cp < seqEnd n) :
    cp / 64 ^ (n - 1) < 2 ^ (7 - n) := by
  obtain ⟨hlow, hhigh⟩ := hn
  have hcases : n = 2 ∨ n = 3 ∨ n = 4 ∨ n = 5 ∨ n = 6 := by omega
  rcases hcases with rfl | rfl | rfl | rfl | rfl
  all_goals
    simp only [seqEnd] at hend
    norm_num
    omega

/-- What fill_utf8 writes is read as the code point, whatever the decoder has read before. -/
theorem decode_fillUtf8 {inst : VTermEncodingInstance} (hready : Ready inst) {cp : ℕ}
    (htext : IsText cp) :
    ∃ next, decode inst (fillUtf8 cp) = ([cp], (fillUtf8 cp).length, next) ∧ Ready next := by
  obtain ⟨enc, data⟩ := inst
  obtain ⟨henc, hzero⟩ := hready
  dsimp only at henc hzero
  subst henc
  obtain ⟨hone, hsix, hstart, hend⟩ := utf8Seqlen_bounds htext.2.1
  unfold fillUtf8
  dsimp only
  generalize hn : utf8Seqlen cp = n at hone hsix hstart hend
  by_cases hshort : n = 1
  · subst hshort
    have hbyte : (fillHead 1 cp).toNat = cp := by
      simp only [seqEnd] at hend
      unfold fillHead
      rw [if_pos rfl, toUInt8_toNat (by omega)]
      omega
    have hlow : 0x20 ≤ cp := htext.1
    have hplain : decodeByte ⟨.utf8, data⟩ (fillHead 1 cp) =
        some ([cp], ⟨.utf8, { data with bytesRemaining := 0 }⟩) := by
      simp only [seqEnd] at hend
      rw [decodeByte_utf8]
      unfold decodeUtf8Byte
      simp only [hbyte, hzero]
      rw [if_neg (by omega), if_pos (by omega)]
      rfl
    refine ⟨⟨.utf8, { data with bytesRemaining := 0 }⟩, ?_, rfl, rfl⟩
    simp only [Nat.sub_self, Nat.pow_zero, Nat.div_one, fillTail]
    rw [decode_singleton hplain]
    rfl
  · have hrange : 2 ≤ n ∧ n ≤ 6 := by omega
    obtain ⟨b, rfl⟩ : ∃ b, n = b + 2 := ⟨n - 2, by omega⟩
    have hhead := decodeByte_head data (v := cp / 64 ^ (b + 1)) hrange
    have hbits : cp / 64 ^ (b + 1) < 2 ^ (7 - (b + 2)) := seqEnd_head hrange hend
    rw [if_neg (by omega), Nat.mod_eq_of_lt hbits] at hhead
    have htail := decode_fillTail b ⟨b + 2 - 1, b + 2, cp / 64 ^ (b + 1)⟩ (r := 0) (cp / 64)
      (by dsimp only; omega)
    have hdone := decodeByte_last
      ⟨0 + 1, b + 2, cp / 64 ^ (b + 1) * 64 ^ b + cp / 64 % 64 ^ b⟩ (v := cp) rfl
    have hvalue : (cp / 64 ^ (b + 1) * 64 ^ b + cp / 64 % 64 ^ b) * 64 + cp % 64 = cp := by
      have hsplit : cp / 64 ^ (b + 1) = cp / 64 / 64 ^ b := by
        rw [Nat.pow_succ', Nat.div_div_eq_div_mul]
      rw [hsplit, Nat.mul_comm _ (64 ^ b), Nat.div_add_mod, Nat.mul_comm]
      omega
    dsimp only at hdone
    rw [hvalue, checkCp_eq hrange hstart htext] at hdone
    refine ⟨⟨.utf8, ⟨0, b + 2, cp⟩⟩, ?_, rfl, rfl⟩
    have hsecond : decode ⟨.utf8, ⟨b + 2 - 1, b + 2, cp / 64 ^ (b + 1)⟩⟩ (fillTail (b + 1) cp) =
        ([cp], b + 1, ⟨.utf8, ⟨0, b + 2, cp⟩⟩) := by
      rw [fillTail, decode_append _ (by rw [htail, length_fillTail]), htail,
        decode_singleton hdone, length_fillTail]
      rfl
    have hlen : (fillHead (b + 2) (cp / 64 ^ (b + 2 - 1)) :: fillTail (b + 2 - 1) cp).length =
        b + 1 + 1 := by
      rw [List.length_cons, length_fillTail]
      omega
    rw [hlen]
    change decode ⟨.utf8, data⟩ (fillHead (b + 2) (cp / 64 ^ (b + 1)) :: fillTail (b + 1) cp) = _
    rw [decode_cons_some hhead, hsecond]
    rfl

/-- The bytes of a text. -/
def utf8Bytes (cps : List ℕ) : List UInt8 := cps.flatMap fillUtf8

theorem decode_utf8Bytes {inst : VTermEncodingInstance} (hready : Ready inst) {cps : List ℕ}
    (htext : ∀ cp ∈ cps, IsText cp) :
    ∃ next, decode inst (utf8Bytes cps) = (cps, (utf8Bytes cps).length, next) ∧ Ready next := by
  induction cps generalizing inst with
  | nil => exact ⟨inst, rfl, hready⟩
  | cons cp cps ih =>
    obtain ⟨next, hfirst, hnext⟩ := decode_fillUtf8 hready (htext cp List.mem_cons_self)
    obtain ⟨last, hrest, hlast⟩ := ih hnext fun c hc => htext c (List.mem_cons_of_mem cp hc)
    refine ⟨last, ?_, hlast⟩
    have hall : (decode inst (fillUtf8 cp)).2.1 = (fillUtf8 cp).length := by rw [hfirst]
    unfold utf8Bytes at hrest ⊢
    rw [List.flatMap_cons, decode_append _ hall, hfirst, hrest, List.length_append]
    rfl

/-! Backwards: what is read with nothing invalid in it is what fill_utf8 writes. -/

/-- The bytes of the sequence that is open. -/
def opened (data : UTF8DecoderData) : List UInt8 :=
  if data.bytesRemaining = 0 then []
  else
    let read := data.bytesTotal - 1 - data.bytesRemaining
    fillHead data.bytesTotal (data.thisCp / 64 ^ read) :: fillTail read data.thisCp

/-- An open sequence is one of two to six bytes, and what has been read of it fits. -/
def WellOpened (data : UTF8DecoderData) : Prop :=
  data.bytesRemaining = 0 ∨ (2 ≤ data.bytesTotal ∧ data.bytesTotal ≤ 6) ∧
    data.bytesRemaining < data.bytesTotal ∧
      data.thisCp / 64 ^ (data.bytesTotal - 1 - data.bytesRemaining) < 2 ^ (7 - data.bytesTotal)

theorem uint8_eq_of_toNat {a b : UInt8} (h : a.toNat = b.toNat) : a = b := UInt8.toNat_inj.mp h

/-- The bytes that leave nothing invalid behind. -/
theorem decodeUtf8Byte_clean {data next : UTF8DecoderData} {byte : UInt8} {cps : List ℕ}
    (h : decodeUtf8Byte data byte = some (cps, next)) (hclean : unicodeInvalid ∉ cps) :
    (data.bytesRemaining = 0 ∧ 0x20 ≤ byte.toNat ∧ byte.toNat < 0x80 ∧ cps = [byte.toNat] ∧
        next.bytesRemaining = 0) ∨
      (data.bytesRemaining = 0 ∧ cps = [] ∧ ∃ n v, (2 ≤ n ∧ n ≤ 6) ∧ v < 2 ^ (7 - n) ∧
        byte = fillHead n v ∧ next = ⟨n - 1, n, v⟩) ∨
      (∃ v, v / 64 = data.thisCp ∧ byte = (0x80 + v % 64).toUInt8 ∧
        (data.bytesRemaining = 1 ∧ cps = [checkCp data.bytesTotal v] ∧ next.bytesRemaining = 0 ∨
          1 < data.bytesRemaining ∧ cps = [] ∧
            next = ⟨data.bytesRemaining - 1, data.bytesTotal, v⟩)) := by
  have hhead : ∀ n v, startCp data n v = (cps, next) →
      data.bytesRemaining = 0 ∧ cps = [] ∧ next = ⟨n - 1, n, v⟩ := by
    intro n v hstart
    unfold startCp at hstart
    obtain ⟨rfl, rfl⟩ := Prod.mk.inj hstart
    by_cases hzero : data.bytesRemaining = 0
    · exact ⟨hzero, if_neg (fun hne => hne hzero), rfl⟩
    · rw [if_pos hzero] at hclean
      exact absurd (List.mem_singleton.mpr rfl) hclean
  have hfill : ∀ n v, (fillHead n v).toNat = byte.toNat → byte = fillHead n v :=
    fun n v hbyte => uint8_eq_of_toNat hbyte.symm
  unfold decodeUtf8Byte at h
  dsimp only at h
  split_ifs at h with h20 h80 hopen hc0 hzero hone he0 hf0 hf8 hfc hfe
  · obtain ⟨rfl, rfl⟩ := Prod.mk.inj (Option.some.inj h)
    exact absurd (List.mem_append_left _ (List.mem_singleton.mpr rfl)) hclean
  · obtain ⟨rfl, rfl⟩ := Prod.mk.inj (Option.some.inj h)
    exact .inl ⟨not_not.mp hopen, by omega, h80, rfl, rfl⟩
  · obtain ⟨rfl, rfl⟩ := Prod.mk.inj (Option.some.inj h)
    exact absurd (List.mem_singleton.mpr rfl) hclean
  · obtain ⟨rfl, rfl⟩ := Prod.mk.inj (Option.some.inj h)
    refine .inr (.inr ⟨data.thisCp * 64 + byte.toNat % 64, by omega, ?_, .inl ⟨hone, rfl, rfl⟩⟩)
    apply uint8_eq_of_toNat
    rw [toUInt8_toNat (by omega)]
    omega
  · obtain ⟨rfl, rfl⟩ := Prod.mk.inj (Option.some.inj h)
    refine .inr (.inr ⟨data.thisCp * 64 + byte.toNat % 64, by omega, ?_, .inr ⟨by omega, rfl, rfl⟩⟩)
    apply uint8_eq_of_toNat
    rw [toUInt8_toNat (by omega)]
    omega
  · obtain ⟨hready, hcps, hnext⟩ := hhead _ _ (Option.some.inj h)
    have hbyte : (fillHead 2 (byte.toNat % 32)).toNat = 0xc0 + byte.toNat % 32 % 0x20 :=
      toUInt8_toNat (by omega)
    exact .inr (.inl ⟨hready, hcps, 2, _, by omega, by norm_num; omega,
      hfill _ _ (by omega), hnext⟩)
  · obtain ⟨hready, hcps, hnext⟩ := hhead _ _ (Option.some.inj h)
    have hbyte : (fillHead 3 (byte.toNat % 16)).toNat = 0xe0 + byte.toNat % 16 % 0x10 :=
      toUInt8_toNat (by omega)
    exact .inr (.inl ⟨hready, hcps, 3, _, by omega, by norm_num; omega,
      hfill _ _ (by omega), hnext⟩)
  · obtain ⟨hready, hcps, hnext⟩ := hhead _ _ (Option.some.inj h)
    have hbyte : (fillHead 4 (byte.toNat % 8)).toNat = 0xf0 + byte.toNat % 8 % 0x08 :=
      toUInt8_toNat (by omega)
    exact .inr (.inl ⟨hready, hcps, 4, _, by omega, by norm_num; omega,
      hfill _ _ (by omega), hnext⟩)
  · obtain ⟨hready, hcps, hnext⟩ := hhead _ _ (Option.some.inj h)
    have hbyte : (fillHead 5 (byte.toNat % 4)).toNat = 0xf8 + byte.toNat % 4 % 0x04 :=
      toUInt8_toNat (by omega)
    exact .inr (.inl ⟨hready, hcps, 5, _, by omega, by norm_num; omega,
      hfill _ _ (by omega), hnext⟩)
  · obtain ⟨hready, hcps, hnext⟩ := hhead _ _ (Option.some.inj h)
    have hbyte : (fillHead 6 (byte.toNat % 2)).toNat = 0xfc + byte.toNat % 2 % 0x02 :=
      toUInt8_toNat (by omega)
    exact .inr (.inl ⟨hready, hcps, 6, _, by omega, by norm_num; omega,
      hfill _ _ (by omega), hnext⟩)
  · obtain ⟨rfl, rfl⟩ := Prod.mk.inj (Option.some.inj h)
    exact absurd (List.mem_singleton.mpr rfl) hclean

/-- A value whose first bits fit its first byte is below the end of the sequences of its length. -/
theorem lt_seqEnd {n v : ℕ} (hn : 2 ≤ n ∧ n ≤ 6) (h : v / 64 ^ (n - 1) < 2 ^ (7 - n)) :
    v < seqEnd n := by
  obtain ⟨hlow, hhigh⟩ := hn
  have hcases : n = 2 ∨ n = 3 ∨ n = 4 ∨ n = 5 ∨ n = 6 := by omega
  rcases hcases with rfl | rfl | rfl | rfl | rfl
  all_goals
    norm_num at h
    simp only [seqEnd]
    omega

/-- One byte more is read, or a code point is finished. -/
theorem opened_step {data next : UTF8DecoderData} {byte : UInt8} {cps : List ℕ}
    (hopened : WellOpened data) (h : decodeUtf8Byte data byte = some (cps, next))
    (hclean : unicodeInvalid ∉ cps) :
    WellOpened next ∧ opened data ++ [byte] = utf8Bytes cps ++ opened next ∧
      ∀ cp ∈ cps, IsText cp := by
  rcases decodeUtf8Byte_clean h hclean with
    ⟨hready, hlow, hhigh, rfl, hnext⟩ | ⟨hready, rfl, n, v, hn, hv, rfl, rfl⟩ |
      ⟨v, hv, rfl, ⟨hone, rfl, hnext⟩ | ⟨hmore, rfl, rfl⟩⟩
  · refine ⟨.inl hnext, ?_, ?_⟩
    · have hlen : utf8Seqlen byte.toNat = 1 := if_pos hhigh
      have hbyte : fillHead 1 byte.toNat = byte := by
        apply uint8_eq_of_toNat
        unfold fillHead
        rw [if_pos rfl, toUInt8_toNat (by omega)]
        omega
      unfold opened
      rw [if_pos hready, if_pos hnext]
      simp [utf8Bytes, fillUtf8, hlen, fillTail, hbyte]
    · intro cp hcp
      rw [List.mem_singleton.mp hcp]
      exact ⟨hlow, by omega, by omega, by omega, by omega⟩
  · obtain ⟨hn2, hn6⟩ := hn
    have hsub : n - 1 - (n - 1) = 0 := Nat.sub_self _
    refine ⟨.inr ⟨⟨hn2, hn6⟩, by dsimp only; omega, ?_⟩, ?_, by simp⟩
    · dsimp only
      rw [hsub, Nat.pow_zero, Nat.div_one]
      exact hv
    · unfold opened
      dsimp only
      rw [if_pos hready, if_neg (by omega), hsub, Nat.pow_zero, Nat.div_one]
      rfl
  · obtain hzero | ⟨hn, hlt, hbits⟩ := hopened
    · omega
    · rw [hone] at hbits
      obtain ⟨b, hb⟩ : ∃ b, data.bytesTotal = b + 2 := ⟨data.bytesTotal - 2, by omega⟩
      have hread : b + 2 - 1 - 1 = b := by omega
      rw [hb, hread, ← hv, Nat.div_div_eq_div_mul, ← Nat.pow_succ'] at hbits
      have hend : v < seqEnd (b + 2) := lt_seqEnd (hb ▸ hn) hbits
      have hvalid := checkCp_valid hn (fun heq => hclean (List.mem_singleton.mpr heq.symm))
      obtain ⟨hcheck, hstart, hsurrogate, hfffe, hffff⟩ := hvalid
      rw [hb] at hstart hcheck hn
      have hlen : utf8Seqlen v = b + 2 := utf8Seqlen_eq hn hstart hend
      refine ⟨.inl hnext, ?_, ?_⟩
      · unfold opened
        rw [if_neg (by omega), if_pos hnext, hone, hb, hcheck]
        dsimp only
        rw [hread, ← hv, Nat.div_div_eq_div_mul, ← Nat.pow_succ', List.append_nil]
        unfold utf8Bytes
        rw [List.flatMap_singleton]
        unfold fillUtf8
        dsimp only
        rw [hlen]
        rfl
      · intro cp hcp
        rw [List.mem_singleton.mp hcp, hb, hcheck]
        refine ⟨?_, ?_, hsurrogate, hfffe, hffff⟩
        · have hcases : b = 0 ∨ b = 1 ∨ b = 2 ∨ b = 3 ∨ b = 4 := by omega
          rcases hcases with rfl | rfl | rfl | rfl | rfl
          all_goals
            simp only [seqStart] at hstart
            omega
        · have hcases : b = 0 ∨ b = 1 ∨ b = 2 ∨ b = 3 ∨ b = 4 := by omega
          rcases hcases with rfl | rfl | rfl | rfl | rfl
          all_goals
            simp only [seqEnd] at hend
            omega
  · obtain hzero | ⟨hn, hlt, hbits⟩ := hopened
    · omega
    · have hread : data.bytesTotal - 1 - (data.bytesRemaining - 1) =
          data.bytesTotal - 1 - data.bytesRemaining + 1 := by omega
      have hhead : v / 64 ^ (data.bytesTotal - 1 - (data.bytesRemaining - 1)) =
          data.thisCp / 64 ^ (data.bytesTotal - 1 - data.bytesRemaining) := by
        rw [hread, Nat.pow_succ', ← Nat.div_div_eq_div_mul, hv]
      refine ⟨.inr ⟨hn, by dsimp only; omega, ?_⟩, ?_, by simp⟩
      · dsimp only
        rw [hhead]
        exact hbits
      · unfold opened
        dsimp only
        rw [if_neg (by omega), if_neg (by omega), hhead, hread, fillTail, hv]
        rfl

theorem decode_opened {data : UTF8DecoderData} {bytes : List UInt8} {cps : List ℕ}
    {next : VTermEncodingInstance} (hopened : WellOpened data)
    (h : decode ⟨.utf8, data⟩ bytes = (cps, bytes.length, next)) (hready : Ready next)
    (hclean : unicodeInvalid ∉ cps) :
    opened data ++ bytes = utf8Bytes cps ∧ ∀ cp ∈ cps, IsText cp := by
  induction bytes generalizing data cps with
  | nil =>
    obtain ⟨rfl, -, rfl⟩ : [] = cps ∧ 0 = 0 ∧ ⟨.utf8, data⟩ = next := by
      simpa [decode, Prod.ext_iff] using h
    unfold opened
    rw [if_pos hready.2]
    exact ⟨rfl, by simp⟩
  | cons byte bytes ih =>
    cases hbyte : decodeUtf8Byte data byte with
    | none =>
      have hnone : decodeByte ⟨.utf8, data⟩ byte = none := by
        rw [decodeByte_utf8, hbyte]
        rfl
      rw [decode_cons_none hnone] at h
      simp at h
    | some found =>
      obtain ⟨first, data'⟩ := found
      have hsome : decodeByte ⟨.utf8, data⟩ byte = some (first, ⟨.utf8, data'⟩) := by
        rw [decodeByte_utf8, hbyte]
        rfl
      rw [decode_cons_some hsome] at h
      generalize hrest : decode ⟨.utf8, data'⟩ bytes = rest at h
      obtain ⟨restCps, eaten, last⟩ := rest
      simp only [Prod.mk.injEq, List.length_cons, Nat.add_right_cancel_iff] at h
      obtain ⟨rfl, rfl, rfl⟩ := h
      rw [List.mem_append, not_or] at hclean
      obtain ⟨hnext, hbytes, htext⟩ := opened_step hopened hbyte hclean.1
      obtain ⟨hrestBytes, hrestText⟩ := ih hnext hrest hclean.2
      constructor
      · have hflat : utf8Bytes (first ++ restCps) = utf8Bytes first ++ utf8Bytes restCps :=
          List.flatMap_append
        rw [hflat, ← hrestBytes, ← List.append_assoc, ← hbytes, List.append_assoc]
        rfl
      · exact fun cp hcp => (List.mem_append.mp hcp).elim (htext cp) (hrestText cp)

/-- Between two code points, the decoder reads bytes without finding anything invalid exactly when
they are what fill_utf8 writes for the code points that it reports. -/
theorem decode_iff_fillUtf8 {inst : VTermEncodingInstance} (hready : Ready inst)
    (bytes : List UInt8) {cps : List ℕ} (hclean : unicodeInvalid ∉ cps) :
    (∃ next, decode inst bytes = (cps, bytes.length, next) ∧ Ready next) ↔
      bytes = utf8Bytes cps ∧ ∀ cp ∈ cps, IsText cp := by
  constructor
  · intro h
    obtain ⟨next, hdecode, hnext⟩ := h
    obtain ⟨enc, data⟩ := inst
    obtain ⟨henc, hzero⟩ := hready
    dsimp only at henc hzero
    subst henc
    have hopened := decode_opened (.inl hzero) hdecode hnext hclean
    unfold opened at hopened
    rw [if_pos hzero] at hopened
    exact hopened
  · intro h
    obtain ⟨rfl, htext⟩ := h
    exact decode_utf8Bytes hready htext

/-- An accented letter, a Chinese one and an emoji. -/
theorem decode_iff_fillUtf8_emoji :
    (∃ next, decode ⟨.utf8, ⟨0, 0, 0⟩⟩ [0xc3, 0xa9, 0xe4, 0xb8, 0xad, 0xf0, 0x9f, 0x98, 0x80] =
        ([0xe9, 0x4e2d, 0x1f600], 9, next) ∧ Ready next) ↔
      [0xc3, 0xa9, 0xe4, 0xb8, 0xad, 0xf0, 0x9f, 0x98, 0x80] =
        utf8Bytes [0xe9, 0x4e2d, 0x1f600] ∧ ∀ cp ∈ [0xe9, 0x4e2d, 0x1f600], IsText cp :=
  decode_iff_fillUtf8 (by decide) _ (by decide)

end Jterm.Vterm
