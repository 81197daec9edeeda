import Jterm.Vterm.Unicode

/-!
Decoding runs of text bytes into code points (encoding.c). A decoder stops at the first
byte it does not take; UTF-8 keeps an unfinished code point for the next run.
-/
namespace Jterm.Vterm

def unicodeInvalid : ℕ := 0xfffd

/-- What `vterm_lookup_encoding` can return. -/
inductive VTermEncoding
  | utf8
  | decDrawing
  | uk
  | usascii
  deriving DecidableEq, Repr

structure UTF8DecoderData where
  bytesRemaining : ℕ
  bytesTotal : ℕ
  thisCp : ℕ
  deriving DecidableEq, Repr

structure VTermEncodingInstance where
  enc : VTermEncoding
  data : UTF8DecoderData
  deriving DecidableEq, Repr

/-- `vterm_lookup_encoding` of a 94-character set. -/
def lookupEncoding (designation : UInt8) : Option VTermEncoding :=
  if designation = 0x30 then some .decDrawing
  else if designation = 0x41 then some .uk
  else if designation = 0x42 then some .usascii
  else none

def initUtf8 (data : UTF8DecoderData) : UTF8DecoderData :=
  { data with bytesRemaining := 0, bytesTotal := 0 }

/-- A new encoding in a slot; only UTF-8 has an init function. -/
def VTermEncodingInstance.select (inst : VTermEncodingInstance) (enc : VTermEncoding) :
    VTermEncodingInstance :=
  { enc := enc, data := if enc = .utf8 then initUtf8 inst.data else inst.data }

/-- A finished code point: overlong sequences and plainly invalid ones. -/
def checkCp (bytesTotal thisCp : ℕ) : ℕ :=
  let overlong : Bool :=
    match bytesTotal with
    | 2 => thisCp < 0x80
    | 3 => thisCp < 0x800
    | 4 => thisCp < 0x10000
    | 5 => thisCp < 0x200000
    | 6 => thisCp < 0x4000000
    | _ => false
  let thisCp := if overlong then unicodeInvalid else thisCp
  if (0xd800 ≤ thisCp ∧ thisCp ≤ 0xdfff) ∨ thisCp = 0xfffe ∨ thisCp = 0xffff then unicodeInvalid
  else thisCp

/-- A lead byte; an unfinished code point before it is invalid. -/
def startCp (data : UTF8DecoderData) (total thisCp : ℕ) : List ℕ × UTF8DecoderData :=
  (if data.bytesRemaining ≠ 0 then [unicodeInvalid] else [],
    { bytesRemaining := total - 1, bytesTotal := total, thisCp := thisCp })

/-- One byte of decode_utf8: the code points it stores, or `none` where decoding stops. -/
def decodeUtf8Byte (data : UTF8DecoderData) (byte : UInt8) :
    Option (List ℕ × UTF8DecoderData) :=
  let c := byte.toNat
  if c < 0x20 then none
  else if c < 0x80 then
    some ((if data.bytesRemaining ≠ 0 then [unicodeInvalid] else []) ++ [c],
      { data with bytesRemaining := 0 })
  else if c < 0xc0 then
    if data.bytesRemaining = 0 then some ([unicodeInvalid], data)
    else
      let thisCp := data.thisCp * 64 + c % 64
      if data.bytesRemaining = 1 then
        let thisCp := checkCp data.bytesTotal thisCp
        some ([thisCp], { data with bytesRemaining := 0, thisCp := thisCp })
      else some ([], { data with bytesRemaining := data.bytesRemaining - 1, thisCp := thisCp })
  else if c < 0xe0 then some (startCp data 2 (c % 32))
  else if c < 0xf0 then some (startCp data 3 (c % 16))
  else if c < 0xf8 then some (startCp data 4 (c % 8))
  else if c < 0xfc then some (startCp data 5 (c % 4))
  else if c < 0xfe then some (startCp data 6 (c % 2))
  else some ([unicodeInvalid], data)

/-- The tables DECdrawing.inc and uk.inc; 0 stands for no entry. -/
def tableChar : VTermEncoding → ℕ → ℕ
  | .decDrawing, c =>
    if 0x60 ≤ c then
      [0x25c6, 0x2592, 0x2409, 0x240c, 0x240d, 0x240a, 0x00b0, 0x00b1, 0x2424, 0x240b, 0x2518,
        0x2510, 0x250c, 0x2514, 0x253c, 0x23ba, 0x23bb, 0x2500, 0x23bc, 0x23bd, 0x251c, 0x2524,
        0x2534, 0x252c, 0x2502, 0x2a7d, 0x2a7e, 0x03c0, 0x2260, 0x00a3, 0x00b7].getD (c - 0x60) 0
    else 0
  | .uk, c => if c = 0x23 then 0xa3 else 0
  | _, _ => 0

/-- One byte of decode_table; its high bit is dropped. -/
def decodeTableByte (enc : VTermEncoding) (byte : UInt8) : Option (List ℕ) :=
  let c := byte.toNat % 128
  if c < 0x20 then none
  else if tableChar enc c ≠ 0 then some [tableChar enc c]
  else some [c]

/-- One byte of decode_usascii. -/
def decodeUsasciiByte (byte : UInt8) : Option (List ℕ) :=
  let c := byte.toNat
  if c < 0x20 ∨ 0x80 ≤ c then none else some [c]

def decodeByte (inst : VTermEncodingInstance) (byte : UInt8) :
    Option (List ℕ × VTermEncodingInstance) :=
  match inst.enc with
  | .utf8 => (decodeUtf8Byte inst.data byte).map fun (cps, data) => (cps, { inst with data := data })
  | .usascii => (decodeUsasciiByte byte).map fun cps => (cps, inst)
  | enc => (decodeTableByte enc byte).map fun cps => (cps, inst)

/-- The loop all decoders have: code points stored, bytes eaten and what the instance keeps. -/
def decode (inst : VTermEncodingInstance) : List UInt8 → List ℕ × ℕ × VTermEncodingInstance
  | [] => ([], 0, inst)
  | byte :: bytes =>
    match decodeByte inst byte with
    | none => ([], 0, inst)
    | some (cps, next) =>
      let (codepoints, eaten, last) := decode next bytes
      (cps ++ codepoints, eaten + 1, last)

example : (decode ⟨.utf8, ⟨0, 0, 0⟩⟩ [0xc3, 0xa9, 0x71, 0x0a]).1 = [0xe9, 0x71] := by decide

theorem decode_cons_none {inst : VTermEncodingInstance} {byte : UInt8}
    (h : decodeByte inst byte = none) (bytes : List UInt8) :
    decode inst (byte :: bytes) = ([], 0, inst) := by
  rw [decode, h]

theorem decode_cons_some {inst next : VTermEncodingInstance} {byte : UInt8} {cps : List ℕ}
    (h : decodeByte inst byte = some (cps, next)) (bytes : List UInt8) :
    decode inst (byte :: bytes) =
      (cps ++ (decode next bytes).1, (decode next bytes).2.1 + 1, (decode next bytes).2.2) := by
  rw [decode, h]

theorem decode_eaten_le (inst : VTermEncodingInstance) (bytes : List UInt8) :
    (decode inst bytes).2.1 ≤ bytes.length := by
  induction bytes generalizing inst with
  | nil => exact Nat.le_refl 0
  | cons byte bytes ih =>
    cases hbyte : decodeByte inst byte with
    | none =>
      rw [decode_cons_none hbyte]
      exact Nat.zero_le _
    | some found =>
      rw [decode_cons_some hbyte]
      exact Nat.succ_le_succ (ih found.2)

theorem decodeByte_enc {inst next : VTermEncodingInstance} {byte : UInt8} {cps : List ℕ}
    (h : decodeByte inst byte = some (cps, next)) : next.enc = inst.enc := by
  unfold decodeByte at h
  split at h
  · obtain ⟨⟨cps', data⟩, -, heq⟩ := Option.map_eq_some_iff.mp h
    rw [← (Prod.mk.inj heq).2]
  · obtain ⟨cps', -, heq⟩ := Option.map_eq_some_iff.mp h
    rw [← (Prod.mk.inj heq).2]
  · obtain ⟨cps', -, heq⟩ := Option.map_eq_some_iff.mp h
    rw [← (Prod.mk.inj heq).2]

/-- Decoding keeps the encoding of the slot. -/
theorem decode_enc (inst : VTermEncodingInstance) (bytes : List UInt8) :
    (decode inst bytes).2.2.enc = inst.enc := by
  induction bytes generalizing inst with
  | nil => rfl
  | cons byte bytes ih =>
    cases hbyte : decodeByte inst byte with
    | none => rw [decode_cons_none hbyte]
    | some found =>
      rw [decode_cons_some hbyte, ih, decodeByte_enc hbyte]

/-- A decoder that takes all of one piece goes on in the next with what it kept. -/
theorem decode_append {inst : VTermEncodingInstance} {x : List UInt8} (y : List UInt8)
    (hall : (decode inst x).2.1 = x.length) :
    decode inst (x ++ y) =
      ((decode inst x).1 ++ (decode (decode inst x).2.2 y).1,
        x.length + (decode (decode inst x).2.2 y).2.1, (decode (decode inst x).2.2 y).2.2) := by
  induction x generalizing inst with
  | nil => simp [decode]
  | cons byte bytes ih =>
    cases hbyte : decodeByte inst byte with
    | none =>
      rw [decode_cons_none hbyte] at hall
      simp at hall
    | some found =>
      rw [decode_cons_some hbyte, List.length_cons, Nat.add_right_cancel_iff] at hall
      rw [List.cons_append, decode_cons_some hbyte, decode_cons_some hbyte, ih hall]
      simp only [List.append_assoc, List.length_cons, Nat.add_right_comm]

/-- A decoder that stops inside one piece does not see the next. -/
theorem decode_append_of_lt {inst : VTermEncodingInstance} {x : List UInt8} (y : List UInt8)
    (hstops : (decode inst x).2.1 < x.length) : decode inst (x ++ y) = decode inst x := by
  induction x generalizing inst with
  | nil => contradiction
  | cons byte bytes ih =>
    cases hbyte : decodeByte inst byte with
    | none => rw [List.cons_append, decode_cons_none hbyte, decode_cons_none hbyte]
    | some found =>
      rw [decode_cons_some hbyte, List.length_cons, Nat.add_lt_add_iff_right] at hstops
      rw [List.cons_append, decode_cons_some hbyte, decode_cons_some hbyte, ih hstops]

/-- A decoder that takes nothing of the second piece. -/
theorem decode_append_of_eq {inst : VTermEncodingInstance} {x y : List UInt8}
    (h : (decode inst (x ++ y)).2.1 = x.length) : decode inst (x ++ y) = decode inst x := by
  induction x generalizing inst with
  | nil =>
    cases y with
    | nil => rfl
    | cons byte rest =>
      cases hbyte : decodeByte inst byte with
      | none => exact decode_cons_none hbyte rest
      | some found =>
        rw [List.nil_append, decode_cons_some hbyte] at h
        contradiction
  | cons byte bytes ih =>
    cases hbyte : decodeByte inst byte with
    | none => rw [List.cons_append, decode_cons_none hbyte, decode_cons_none hbyte]
    | some found =>
      rw [List.cons_append, decode_cons_some hbyte, List.length_cons, Nat.add_right_cancel_iff] at h
      rw [List.cons_append, decode_cons_some hbyte, decode_cons_some hbyte, ih h]

end Jterm.Vterm
