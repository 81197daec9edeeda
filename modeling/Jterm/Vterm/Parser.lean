import Jterm.Lib.Runs
import Mathlib.Algebra.Ring.Nat
import Mathlib.Data.List.Basic

/-!
The parser (parser.c), for any set of callbacks. `string_start` is kept as the bytes from
there on, `none` for null. What a run of the parser does to the user's state is a run of
callbacks, which `pushBytes_calls` makes explicit.
-/
namespace Jterm.Vterm

open Runs

inductive ParserState
  | normal
  | csi
  | osc
  | dcs
  | esc
  | escInOsc
  | escInDcs
  deriving DecidableEq, Repr

structure Parser where
  state : ParserState
  strbuffer : List UInt8
  deriving DecidableEq, Repr

def strbufferLen : ℕ := 1024000

/-- The largest `size_t`, to which -1 is converted. -/
def sizeMax : ℕ := 2 ^ 32 - 1

/-- `text` also returns the number of bytes it has eaten; `csi` gets the bytes in front of
the final byte and the final byte. -/
structure ParserCallbacks (σ : Type*) where
  isUtf8 : σ → Bool
  text : σ → List UInt8 → σ × ℕ
  control : σ → UInt8 → σ
  escape : σ → List UInt8 → σ
  csi : σ → List UInt8 → UInt8 → σ
  osc : σ → List UInt8 → σ
  dcs : σ → List UInt8 → σ

/-- `strncpy`: nothing is copied behind a zero, the rest is filled with zeros. -/
def strncpy (str : List UInt8) (len : ℕ) : List UInt8 :=
  let copied := (str.take len).takeWhile (· ≠ 0)
  copied ++ List.replicate (len - copied.length) 0

/-- `append_strbuffer`; `str` is what lies at the pointer. -/
def Parser.appendStrbuffer (p : Parser) (str : List UInt8) (len : ℕ) : Parser :=
  { p with strbuffer := p.strbuffer ++ strncpy str (min len (strbufferLen - p.strbuffer.length)) }

/-- The string do_string works on: the saved part, if any, and the last fragment. -/
def Parser.wholeString (p : Parser) (str : List UInt8) (len : ℕ) : List UInt8 :=
  if p.strbuffer = [] then str.take len else (p.appendStrbuffer str len).strbuffer

def Parser.enter (p : Parser) (state : ParserState) : Parser := { p with state := state }

section Push
variable {σ : Type*} (cb : ParserCallbacks σ)

/-- A completed string, by the state the parser is in (do_string but for NORMAL). -/
def stringCallback (state : ParserState) (s : σ) (str : List UInt8) : σ :=
  match state with
  | .esc =>
    match str with
    | [b] => if 0x40 ≤ b ∧ b < 0x60 then cb.control s (b + 0x40) else cb.escape s str
    | _ => cb.escape s str
  | .csi => cb.csi s str.dropLast (str.getLastD 0)
  | .osc => cb.osc s str
  | .dcs => cb.dcs s str
  | _ => s

/-- do_string and ENTER_NORMAL_STATE. -/
def finishString (p : Parser) (s : σ) (str : List UInt8) (len : ℕ) : Parser × σ :=
  (⟨.normal, []⟩, stringCallback cb p.state s (p.wholeString str len))

/-- ENTER_NORMAL_STATE where no string is completed; `strbuffer` keeps what it has. -/
def Parser.enterNormal (p : Parser) : Parser := p.enter .normal

/-- The bytes saved by `append_strbuffer` in the states of a string. -/
def Parser.save (p : Parser) (frag : List UInt8) : Parser := p.appendStrbuffer frag frag.length

/-- A byte behind ESC. -/
def pushEsc (p : Parser) (s : σ) (frag : List UInt8) (c : UInt8) :
    Parser × σ × Option (List UInt8) :=
  if c = 0x50 then (p.enter .dcs, s, some [])
  else if c = 0x5b then (p.enter .csi, s, some [])
  else if c = 0x5d then (p.enter .osc, s, some [])
  else if 0x30 ≤ c ∧ c < 0x7f then
    let (p, s) := finishString cb p s (frag ++ [c]) (frag.length + 1)
    (p, s, none)
  else (p, s, some (frag ++ [c]))

/-- A byte behind an ESC in an OSC or DCS string; `rest` is what follows it. The length of the
string in front of ESC `\` is one less than the fragment, which can be empty. -/
def pushEscIn (p : Parser) (s : σ) (string : ParserState) (frag : List UInt8) (c : UInt8)
    (rest : List UInt8) : Parser × σ × Option (List UInt8) :=
  if c = 0x5c then
    let (p, s) :=
      if frag = [] then finishString cb (p.enter string) s (c :: rest) sizeMax
      else finishString cb (p.enter string) s frag (frag.length - 1)
    (p, s, none)
  else pushEsc cb (p.enter .esc) s [] c

/-- A byte that is no control, in the states of a string. -/
def pushString (p : Parser) (s : σ) (frag : List UInt8) (c : UInt8) (rest : List UInt8) :
    Parser × σ × Option (List UInt8) :=
  match p.state with
  | .escInOsc => pushEscIn cb p s .osc frag c rest
  | .escInDcs => pushEscIn cb p s .dcs frag c rest
  | .esc => pushEsc cb p s frag c
  | .csi =>
    if 0x40 ≤ c ∧ c ≤ 0x7f then
      let (p, s) := finishString cb p s (frag ++ [c]) (frag.length + 1)
      (p, s, none)
    else (p, s, some (frag ++ [c]))
  | .osc | .dcs =>
    if c = 0x07 ∨ (c = 0x9c ∧ cb.isUtf8 s = false) then
      let (p, s) := finishString cb p s frag frag.length
      (p, s, none)
    else (p, s, some (frag ++ [c]))
  | .normal => (p, s, none)

/-- NUL, DEL, CAN, SUB, ESC and the other C0 controls, in any state; `none` for other bytes. -/
def pushControl (p : Parser) (s : σ) (frag : Option (List UInt8)) (c : UInt8) :
    Option (Parser × σ × Option (List UInt8)) :=
  if c = 0x00 ∨ c = 0x7f then
    some (if p.state ≠ .normal then (p.save (frag.getD []), s, some []) else (p, s, frag))
  else if c = 0x18 ∨ c = 0x1a then some (p.enterNormal, s, none)
  else if c = 0x1b then
    some (match p.state with
      | .osc => (p.enter .escInOsc, s, frag.map (· ++ [c]))
      | .dcs => (p.enter .escInDcs, s, frag.map (· ++ [c]))
      | _ => (p.enter .esc, s, some []))
  else if c = 0x07 ∧ (p.state = .osc ∨ p.state = .dcs) then none
  else if c < 0x20 then
    some (if p.state ≠ .normal then (p.save (frag.getD []), cb.control s c, some [])
      else (p, cb.control s c, frag))
  else none

/-- A C1 control in NORMAL, without UTF-8. -/
def pushC1 (p : Parser) (s : σ) (c : UInt8) : Parser × σ × Option (List UInt8) :=
  if c = 0x90 then (p.enter .dcs, s, some [])
  else if c = 0x9b then (p.enter .csi, s, some [])
  else if c = 0x9d then (p.enter .osc, s, some [])
  else (p, cb.control s c, none)

/-- The part of the loop for one byte other than text; `none` where the byte is text. -/
def pushByte (p : Parser) (s : σ) (frag : Option (List UInt8)) (c : UInt8) (rest : List UInt8) :
    Option (Parser × σ × Option (List UInt8)) :=
  match pushControl cb p s frag c with
  | some next => some next
  | none =>
    if p.state ≠ .normal then some (pushString cb p s (frag.getD []) c rest)
    else if 0x80 ≤ c ∧ c < 0xa0 ∧ cb.isUtf8 s = false then some (pushC1 cb p s c)
    else none

/-- do_string in NORMAL. -/
def pushText (p : Parser) (s : σ) (str : List UInt8) : Parser × σ × ℕ :=
  let (s, eaten) := cb.text s (p.wholeString str str.length)
  ({ p with strbuffer := [] }, s, eaten)

/-- The loop of vterm_push_bytes, from where `skip` more bytes have been eaten, and the
saving of an open string at its end. Text that is not eaten is saved too. -/
def pushLoop : List UInt8 → ℕ → Parser → σ → Option (List UInt8) → Parser × σ
  | [], _, p, s, frag =>
    match frag with
    | none => (p, s)
    | some frag => (p.save frag, s)
  | c :: rest, skip, p, s, frag =>
    match skip with
    | skip + 1 => pushLoop rest skip p s frag
    | 0 =>
      match pushByte cb p s frag c rest with
      | some (p, s, frag) => pushLoop rest 0 p s frag
      | none =>
        let (p, s, eaten) := pushText cb p s (c :: rest)
        if eaten = 0 then (p.save (c :: rest), s) else pushLoop rest (eaten - 1) p s none

/-- `vterm_push_bytes` -/
def pushBytes (p : Parser) (s : σ) (bytes : List UInt8) : Parser × σ :=
  pushLoop cb bytes 0 p s (if p.state = .normal then none else some [])

end Push

/-! Callbacks on states that a relation keeps together, driven by the same bytes: the parser
does the same, and the states stay together. -/

section Related
variable {σ τ : Type*}

/-- The callbacks keep `R`, and related states answer the parser alike. -/
structure ParserCallbacks.Related (cb : ParserCallbacks σ) (cb' : ParserCallbacks τ)
    (R : σ → τ → Prop) : Prop where
  isUtf8 : ∀ {s t}, R s t → cb'.isUtf8 t = cb.isUtf8 s
  text : ∀ {s t} bytes, R s t → R (cb.text s bytes).1 (cb'.text t bytes).1
  eaten : ∀ {s t} bytes, R s t → (cb'.text t bytes).2 = (cb.text s bytes).2
  control : ∀ {s t} c, R s t → R (cb.control s c) (cb'.control t c)
  escape : ∀ {s t} str, R s t → R (cb.escape s str) (cb'.escape t str)
  csi : ∀ {s t} str c, R s t → R (cb.csi s str c) (cb'.csi t str c)
  osc : ∀ {s t} str, R s t → R (cb.osc s str) (cb'.osc t str)
  dcs : ∀ {s t} str, R s t → R (cb.dcs s str) (cb'.dcs t str)

/-- Two steps of the parser that differ in the user's states alone. -/
def StepRelated (R : σ → τ → Prop) (next : Parser × σ × Option (List UInt8))
    (next' : Parser × τ × Option (List UInt8)) : Prop :=
  next'.1 = next.1 ∧ next'.2.2 = next.2.2 ∧ R next.2.1 next'.2.1

variable {cb : ParserCallbacks σ} {cb' : ParserCallbacks τ} {R : σ → τ → Prop}
  (hcb : cb.Related cb' R)

include hcb

theorem stringCallback_related {s : σ} {t : τ} (h : R s t) (state : ParserState)
    (str : List UInt8) : R (stringCallback cb state s str) (stringCallback cb' state t str) := by
  cases state with
  | esc =>
    unfold stringCallback
    dsimp only
    split
    · split
      · exact hcb.control _ h
      · exact hcb.escape _ h
    · exact hcb.escape str h
  | csi => exact hcb.csi str.dropLast (str.getLastD 0) h
  | osc => exact hcb.osc str h
  | dcs => exact hcb.dcs str h
  | normal => exact h
  | escInOsc => exact h
  | escInDcs => exact h

theorem finishString_related {s : σ} {t : τ} (h : R s t) (p : Parser) (str : List UInt8)
    (len : ℕ) :
    StepRelated R ((finishString cb p s str len).1, (finishString cb p s str len).2, none)
      ((finishString cb' p t str len).1, (finishString cb' p t str len).2, none) :=
  ⟨rfl, rfl, stringCallback_related hcb h p.state _⟩

theorem pushEsc_related {s : σ} {t : τ} (h : R s t) (p : Parser) (frag : List UInt8)
    (c : UInt8) : StepRelated R (pushEsc cb p s frag c) (pushEsc cb' p t frag c) := by
  unfold pushEsc
  split_ifs
  · exact ⟨rfl, rfl, h⟩
  · exact ⟨rfl, rfl, h⟩
  · exact ⟨rfl, rfl, h⟩
  · exact finishString_related hcb h p _ _
  · exact ⟨rfl, rfl, h⟩

theorem pushEscIn_related {s : σ} {t : τ} (h : R s t) (p : Parser) (string : ParserState)
    (frag : List UInt8) (c : UInt8) (rest : List UInt8) :
    StepRelated R (pushEscIn cb p s string frag c rest)
      (pushEscIn cb' p t string frag c rest) := by
  unfold pushEscIn
  split_ifs
  · exact finishString_related hcb h _ _ _
  · exact finishString_related hcb h _ _ _
  · exact pushEsc_related hcb h _ [] c

theorem pushString_related {s : σ} {t : τ} (h : R s t) (p : Parser) (frag : List UInt8)
    (c : UInt8) (rest : List UInt8) :
    StepRelated R (pushString cb p s frag c rest) (pushString cb' p t frag c rest) := by
  unfold pushString
  rw [hcb.isUtf8 h]
  cases p.state with
  | normal => exact ⟨rfl, rfl, h⟩
  | esc => exact pushEsc_related hcb h p frag c
  | csi =>
    dsimp only
    split_ifs
    · exact finishString_related hcb h p _ _
    · exact ⟨rfl, rfl, h⟩
  | osc =>
    dsimp only
    split_ifs
    · exact finishString_related hcb h p _ _
    · exact ⟨rfl, rfl, h⟩
  | dcs =>
    dsimp only
    split_ifs
    · exact finishString_related hcb h p _ _
    · exact ⟨rfl, rfl, h⟩
  | escInOsc => exact pushEscIn_related hcb h p .osc frag c rest
  | escInDcs => exact pushEscIn_related hcb h p .dcs frag c rest

theorem pushControl_related {s : σ} {t : τ} (h : R s t) (p : Parser)
    (frag : Option (List UInt8)) (c : UInt8) :
    Option.Rel (StepRelated R) (pushControl cb p s frag c) (pushControl cb' p t frag c) := by
  unfold pushControl
  split_ifs
  · exact Option.Rel.some ⟨rfl, rfl, h⟩
  · exact Option.Rel.some ⟨rfl, rfl, h⟩
  · exact Option.Rel.some ⟨rfl, rfl, h⟩
  · refine Option.Rel.some ?_
    split <;> exact ⟨rfl, rfl, h⟩
  · exact Option.Rel.none
  · exact Option.Rel.some ⟨rfl, rfl, hcb.control c h⟩
  · exact Option.Rel.some ⟨rfl, rfl, hcb.control c h⟩
  · exact Option.Rel.none

theorem pushC1_related {s : σ} {t : τ} (h : R s t) (p : Parser) (c : UInt8) :
    StepRelated R (pushC1 cb p s c) (pushC1 cb' p t c) := by
  unfold pushC1
  split_ifs
  · exact ⟨rfl, rfl, h⟩
  · exact ⟨rfl, rfl, h⟩
  · exact ⟨rfl, rfl, h⟩
  · exact ⟨rfl, rfl, hcb.control c h⟩

theorem pushByte_related {s : σ} {t : τ} (h : R s t) (p : Parser)
    (frag : Option (List UInt8)) (c : UInt8) (rest : List UInt8) :
    Option.Rel (StepRelated R) (pushByte cb p s frag c rest)
      (pushByte cb' p t frag c rest) := by
  have hcontrol := pushControl_related hcb h p frag c
  unfold pushByte
  rw [hcb.isUtf8 h]
  revert hcontrol
  generalize pushControl cb p s frag c = control
  generalize pushControl cb' p t frag c = control'
  intro hcontrol
  cases hcontrol with
  | some hstep => exact Option.Rel.some hstep
  | none =>
    dsimp only
    split_ifs
    · exact Option.Rel.some (pushString_related hcb h p _ c rest)
    · exact Option.Rel.some (pushC1_related hcb h p c)
    · exact Option.Rel.none

theorem pushLoop_related {s : σ} {t : τ} (h : R s t) (bytes : List UInt8) (skip : ℕ)
    (p : Parser) (frag : Option (List UInt8)) :
    (pushLoop cb' bytes skip p t frag).1 = (pushLoop cb bytes skip p s frag).1 ∧
      R (pushLoop cb bytes skip p s frag).2 (pushLoop cb' bytes skip p t frag).2 := by
  induction bytes generalizing skip p s t frag with
  | nil =>
    cases frag with
    | none => exact ⟨rfl, h⟩
    | some frag => exact ⟨rfl, h⟩
  | cons c rest ih =>
    cases skip with
    | succ skip => exact ih h skip p frag
    | zero =>
      have hbyte := pushByte_related hcb h p frag c rest
      have htext := hcb.text (p.wholeString (c :: rest) (c :: rest).length) h
      unfold pushLoop pushText
      dsimp only
      rw [hcb.eaten _ h]
      revert hbyte
      generalize pushByte cb p s frag c rest = next
      generalize pushByte cb' p t frag c rest = next'
      intro hbyte
      cases hbyte with
      | @some next next' hstep =>
        obtain ⟨q, s', frag'⟩ := next
        obtain ⟨q', t', frag''⟩ := next'
        obtain ⟨rfl, rfl, hrest⟩ := hstep
        exact ih hrest 0 _ _
      | none =>
        dsimp only
        split_ifs
        · exact ⟨rfl, htext⟩
        · exact ih htext _ _ none

end Related

/-- The callbacks a run of the parser makes. -/
inductive ParserCall
  | text (bytes : List UInt8)
  | control (c : UInt8)
  | escape (str : List UInt8)
  | csi (str : List UInt8) (command : UInt8)
  | osc (str : List UInt8)
  | dcs (str : List UInt8)
  deriving DecidableEq, Repr

section Calls
variable {σ : Type*} (cb : ParserCallbacks σ)

def ParserCallbacks.call (s : σ) : ParserCall → σ
  | .text bytes => (cb.text s bytes).1
  | .control c => cb.control s c
  | .escape str => cb.escape s str
  | .csi str command => cb.csi s str command
  | .osc str => cb.osc s str
  | .dcs str => cb.dcs s str

/-- The same callbacks, with a record of what they are called with. -/
def ParserCallbacks.recording : ParserCallbacks (σ × List ParserCall) where
  isUtf8 s := cb.isUtf8 s.1
  text s bytes := (((cb.text s.1 bytes).1, s.2 ++ [.text bytes]), (cb.text s.1 bytes).2)
  control s c := (cb.control s.1 c, s.2 ++ [.control c])
  escape s str := (cb.escape s.1 str, s.2 ++ [.escape str])
  csi s str command := (cb.csi s.1 str command, s.2 ++ [.csi str command])
  osc s str := (cb.osc s.1 str, s.2 ++ [.osc str])
  dcs s str := (cb.dcs s.1 str, s.2 ++ [.dcs str])

/-- The callbacks `vterm_push_bytes` makes for these bytes. -/
def parserCalls (p : Parser) (s : σ) (bytes : List UInt8) : List ParserCall :=
  (pushBytes cb.recording p (s, []) bytes).2.2

/-- The recording state `r` follows the plain state `s'` that is reached from `s`. -/
def Records (s : σ) (log : List ParserCall) (s' : σ) (r : σ × List ParserCall) : Prop :=
  ∃ calls, r = (s', log ++ calls) ∧ s' = run cb.call s calls

theorem records_none (s : σ) (log : List ParserCall) : Records cb s log s (s, log) :=
  ⟨[], by simp, rfl⟩

theorem Records.fst {s s' : σ} {log : List ParserCall} {r : σ × List ParserCall}
    (h : Records cb s log s' r) : r.1 = s' := by
  obtain ⟨calls, rfl, -⟩ := h
  rfl

theorem Records.call {s s' : σ} {log : List ParserCall} {r : σ × List ParserCall}
    (h : Records cb s log s' r) (c : ParserCall) :
    Records cb s log (cb.call s' c) (cb.call r.1 c, r.2 ++ [c]) := by
  obtain ⟨calls, rfl, rfl⟩ := h
  exact ⟨calls ++ [c], by simp, by simp [List.foldl_append]⟩

/-- With their record the callbacks do what they do without. -/
theorem recording_related (s : σ) (log : List ParserCall) :
    cb.Related cb.recording (Records cb s log) where
  isUtf8 h := congrArg cb.isUtf8 (h.fst cb)
  text bytes h := h.call cb (.text bytes)
  eaten bytes h := congrArg (fun s => (cb.text s bytes).2) (h.fst cb)
  control c h := h.call cb (.control c)
  escape str h := h.call cb (.escape str)
  csi str c h := h.call cb (.csi str c)
  osc str h := h.call cb (.osc str)
  dcs str h := h.call cb (.dcs str)

/-- What the parser does to the user's state is the run of its callbacks. -/
theorem pushBytes_calls (p : Parser) (s : σ) (bytes : List UInt8) :
    (pushBytes cb p s bytes).2 = run cb.call s (parserCalls cb p s bytes) := by
  obtain ⟨-, calls, hrecorded, hrun⟩ := pushLoop_related (recording_related cb s [])
    (records_none cb s []) bytes 0 p (if p.state = .normal then none else some [])
  unfold parserCalls pushBytes
  rw [hrecorded, List.nil_append]
  exact hrun

end Calls

end Jterm.Vterm
