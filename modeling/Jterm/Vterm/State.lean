import Jterm.Lib.Runs
import Jterm.Vterm.Encoding
import Jterm.Vterm.Pen
import Jterm.Vterm.Rect
import Mathlib.Algebra.Ring.Int.Defs
import Mathlib.Data.List.Basic
import Mathlib.Logic.Function.Iterate

/-!
The terminal state (state.c): cursor, modes, margins, encodings and the glyph that may
still be combined with. What a function asks of the screen is appended to `calls`, for
the screen to execute; the replies the state writes to its output buffer are left out,
as nothing reads them.
-/
namespace Jterm.Vterm

open Runs

structure Mode where
  keypad : Bool
  cursor : Bool
  autowrap : Bool
  insert : Bool
  newline : Bool
  cursorVisible : Bool
  cursorBlink : Bool
  cursorShape : ℕ
  altScreen : Bool
  origin : Bool
  deriving DecidableEq, Repr

structure SavedMode where
  cursorVisible : Bool
  cursorBlink : Bool
  cursorShape : ℕ
  deriving DecidableEq, Repr

inductive MouseProtocol
  | x10
  | utf8
  | sgr
  | rxvt
  deriving DecidableEq, Repr

structure Mouse where
  col : ℤ
  row : ℤ
  buttons : ℕ
  flags : ℕ
  protocol : MouseProtocol
  deriving DecidableEq, Repr

/-- `VTermProp` and its value. -/
inductive TermProp
  | cursorVisible (on : Bool)
  | cursorBlink (on : Bool)
  | altscreen (on : Bool)
  | title (str : List UInt8)
  | iconname (str : List UInt8)
  | reverse (on : Bool)
  | cursorShape (shape : ℕ)
  deriving DecidableEq, Repr

/-- The callbacks of the screen, and `vterm_screen_flush_damage`. -/
inductive ScreenCall
  | putglyph (chars : List ℕ) (width : ℤ) (pos : VTermPos)
  | movecursor (pos oldpos : VTermPos) (visible : Bool)
  | scrollrect (rect : VTermRect) (downward rightward : ℤ)
  | erase (rect : VTermRect)
  | setpenattr (attr : PenAttr)
  | settermprop (prop : TermProp)
  | setmousefunc (on : Bool)
  | bell
  | resize (rows cols : ℤ)
  | flushDamage
  deriving DecidableEq, Repr

/-- `stack` is what lies behind the arguments of a control sequence in memory. -/
structure VTermState where
  rows : ℤ
  cols : ℤ
  pos : VTermPos
  atPhantom : Bool
  scrollregionStart : ℤ
  scrollregionEnd : ℤ
  tabstops : List Bool
  mouse : Mouse
  combineChars : List ℕ
  combineWidth : ℤ
  combinePos : VTermPos
  mode : Mode
  encoding : Fin 4 → VTermEncodingInstance
  encodingUtf8 : VTermEncodingInstance
  isUtf8 : Bool
  glSet : Fin 4
  grSet : Fin 4
  pens : Pens
  savedPos : VTermPos
  savedMode : SavedMode
  stack : List ℕ
  calls : List ScreenCall

namespace VTermState

/-- `SCROLLREGION_END` -/
def scrollregionBottom (s : VTermState) : ℤ :=
  if -1 < s.scrollregionEnd then s.scrollregionEnd else s.rows

def call (s : VTermState) (c : ScreenCall) : VTermState := { s with calls := s.calls ++ [c] }

def putglyph (s : VTermState) (chars : List ℕ) (width : ℤ) (pos : VTermPos) : VTermState :=
  s.call (.putglyph chars width pos)

def updatecursor (s : VTermState) (oldpos : VTermPos) (cancelPhantom : Bool) : VTermState :=
  if s.pos = oldpos then s
  else
    { s with atPhantom := if cancelPhantom then false else s.atPhantom }.call
      (.movecursor s.pos oldpos s.mode.cursorVisible)

/-- The backup callback of webvterm.c does nothing. -/
def erase (s : VTermState) (rect : VTermRect) : VTermState := s.call (.erase rect)

def scroll (s : VTermState) (rect : VTermRect) (downward rightward : ℤ) : VTermState :=
  if downward = 0 ∧ rightward = 0 then s else s.call (.scrollrect rect downward rightward)

/-- The margins, over all columns. -/
def scrollregion (s : VTermState) : VTermRect :=
  ⟨s.scrollregionStart, s.scrollregionBottom, 0, s.cols⟩

def linefeed (s : VTermState) : VTermState :=
  if s.pos.row = s.scrollregionBottom - 1 then s.scroll s.scrollregion 1 0
  else if s.pos.row < s.rows - 1 then { s with pos := { s.pos with row := s.pos.row + 1 } }
  else s

/-- `combine_chars_size`; growing the buffer does not change it. -/
def combineCharsSize : ℕ := 16

def growCombineBuffer (s : VTermState) : VTermState :=
  { s with combineChars := s.combineChars.take combineCharsSize ++
      List.replicate (combineCharsSize * 2 - combineCharsSize) 0 }

/-- `combine_chars[i] = c`; a write behind the buffer is lost. -/
def storeCombine (s : VTermState) (i c : ℕ) : VTermState :=
  let s := if combineCharsSize ≤ i then s.growCombineBuffer else s
  { s with combineChars := s.combineChars.set i c }

/-- Characters from index `i` on and the zero behind them. -/
def storeCombineChars (s : VTermState) (i : ℕ) : List ℕ → VTermState
  | [] => s.storeCombine i 0
  | c :: chars => (s.storeCombine i c).storeCombineChars (i + 1) chars

/-- The characters in front of the first zero. -/
def combineString (s : VTermState) : List ℕ := s.combineChars.takeWhile (· ≠ 0)

def setColTabstop (s : VTermState) (col : ℤ) : VTermState :=
  { s with tabstops := s.tabstops.set col.toNat true }

def clearColTabstop (s : VTermState) (col : ℤ) : VTermState :=
  { s with tabstops := s.tabstops.set col.toNat false }

def isColTabstop (s : VTermState) (col : ℤ) : Bool := decide (0 ≤ col) && s.tabstops.getD col.toNat false

/-- The inner loop of tab; a column is passed at most once, in either direction. -/
def tabLoop (s : VTermState) (direction : ℤ) : ℕ → ℤ → ℤ
  | 0, col => col
  | steps + 1, col =>
    if 0 ≤ col ∧ col < s.cols - 1 then
      if s.isColTabstop (col + direction) then col + direction
      else s.tabLoop direction steps (col + direction)
    else col

def tab (s : VTermState) (count direction : ℤ) : VTermState :=
  { s with pos := { s.pos with
      col := (s.tabLoop direction s.cols.toNat)^[count.toNat] s.pos.col } }

/-- Which instance on_text takes for a run that begins with `byte`. -/
inductive TextSlot
  | set (i : Fin 4)
  | utf8
  deriving DecidableEq, Repr

def textSlot (s : VTermState) (byte : UInt8) : TextSlot :=
  if byte < 0x80 then .set s.glSet else if s.isUtf8 then .utf8 else .set s.grSet

def encodingAt (s : VTermState) : TextSlot → VTermEncodingInstance
  | .set i => s.encoding i
  | .utf8 => s.encodingUtf8

def setEncodingAt (s : VTermState) : TextSlot → VTermEncodingInstance → VTermState
  | .set i, inst => { s with encoding := Function.update s.encoding i inst }
  | .utf8, inst => { s with encodingUtf8 := inst }

/-- Combining characters at the start of a run go to the last glyph if the cursor is still
behind it. What is left of the run is returned. -/
def combineSplit (s : VTermState) (codepoints : List ℕ) : VTermState × List ℕ :=
  if unicodeIsCombining (codepoints.headD 0) ∧ s.pos.row = s.combinePos.row ∧
      s.pos.col = s.combinePos.col + s.combineWidth then
    let s := s.storeCombineChars s.combineString.length (codepoints.takeWhile unicodeIsCombining)
    (s.putglyph s.combineString s.combineWidth s.combinePos,
      codepoints.dropWhile unicodeIsCombining)
  else (s, codepoints)

/-- Each code point with the combining ones that follow it. -/
def glyphs : List ℕ → List (List ℕ)
  | [] => []
  | c :: rest =>
    match glyphs rest with
    | [] => [[c]]
    | glyph :: more =>
      if unicodeIsCombining (rest.headD 0) then (c :: glyph) :: more else [c] :: glyph :: more

def glyphWidth (chars : List ℕ) : ℤ := (chars.map unicodeWidth).sum

/-- Behind the phantom column a new line begins. -/
def wrapPhantom (s : VTermState) : VTermState :=
  if s.atPhantom then
    let s := s.linefeed
    { s with pos := { s.pos with col := 0 }, atPhantom := false }
  else s

/-- In insert mode room is made for every glyph, one column whatever its width. -/
def insertRoom (s : VTermState) : VTermState :=
  if s.mode.insert then s.scroll ⟨s.pos.row, s.pos.row + 1, s.pos.col, s.cols⟩ 0 (-1) else s

/-- The last glyph of a run is saved, for combining characters of the next. -/
def saveGlyph (s : VTermState) (chars : List ℕ) (last : Bool) : VTermState :=
  if last then
    { s.storeCombineChars 0 chars with combineWidth := glyphWidth chars, combinePos := s.pos }
  else s

def advance (s : VTermState) (width : ℤ) : VTermState :=
  if s.cols ≤ s.pos.col + width then
    if s.mode.autowrap then { s with atPhantom := true } else s
  else { s with pos := { s.pos with col := s.pos.col + width } }

/-- The body of the loop of on_text. -/
def putGlyph (s : VTermState) (chars : List ℕ) (last : Bool) : VTermState :=
  let s := s.wrapPhantom.insertRoom
  ((s.putglyph chars (glyphWidth chars) s.pos).saveGlyph chars last).advance (glyphWidth chars)

/-- The glyphs of a run, each with whether it is the last. -/
def markLast : List (List ℕ) → List (List ℕ × Bool)
  | [] => []
  | glyph :: more => (glyph, more.isEmpty) :: markLast more

def glyphStep (s : VTermState) (g : List ℕ × Bool) : VTermState := s.putGlyph g.1 g.2

def putGlyphs (s : VTermState) (codepoints : List ℕ) : VTermState :=
  run glyphStep s (markLast (glyphs codepoints))

/-- The part of on_text behind the decoder. -/
def putPoints (s : VTermState) (codepoints : List ℕ) : VTermState :=
  (s.combineSplit codepoints).1.putGlyphs (s.combineSplit codepoints).2

/-- on_text, and how many bytes it has eaten. -/
def onText (s : VTermState) (bytes : List UInt8) : VTermState × ℕ :=
  let slot := s.textSlot (bytes.headD 0)
  let (codepoints, eaten, inst) := decode (s.encodingAt slot) bytes
  (((s.setEncodingAt slot inst).putPoints codepoints).updatecursor s.pos false, eaten)

def carriageReturn (s : VTermState) : VTermState := { s with pos := { s.pos with col := 0 } }

/-- RI -/
def reverseIndex (s : VTermState) : VTermState :=
  if s.pos.row = s.scrollregionStart then s.scroll s.scrollregion (-1) 0
  else if 0 < s.pos.row then { s with pos := { s.pos with row := s.pos.row - 1 } }
  else s

/-- The cases of on_control; `none` where the control is not handled. -/
def control (s : VTermState) (control : UInt8) : Option VTermState :=
  match control.toNat with
  | 0x07 => some (s.call .bell)
  | 0x08 =>
    some (if 0 < s.pos.col then { s with pos := { s.pos with col := s.pos.col - 1 } } else s)
  | 0x09 => some (s.tab 1 1)
  | 0x0a | 0x0b | 0x0c =>
    let s := s.linefeed
    some (if s.mode.newline then s.carriageReturn else s)
  | 0x0d => some s.carriageReturn
  | 0x0e => some { s with glSet := 1 }
  | 0x0f => some { s with glSet := 0 }
  | 0x84 => some s.linefeed
  | 0x85 => some s.linefeed.carriageReturn
  | 0x88 => some (s.setColTabstop s.pos.col)
  | 0x8d => some s.reverseIndex
  | _ => none

def onControl (s : VTermState) (c : UInt8) : VTermState :=
  match s.control c with
  | none => s
  | some t => t.updatecursor s.pos true

def settermprop (s : VTermState) (prop : TermProp) : VTermState := s.call (.settermprop prop)

/-- Run a function of pen.c; what it reports goes to the screen. -/
def withPens (s : VTermState) (f : Pens → Pens) : VTermState :=
  let pens := f { s.pens with reported := [] }
  { s with
    pens := { pens with reported := [] }
    calls := s.calls ++ pens.reported.map .setpenattr }

def savecursor (s : VTermState) (save : Bool) : VTermState :=
  if save then
    { s with
      savedPos := s.pos
      savedMode := ⟨s.mode.cursorVisible, s.mode.cursorBlink, s.mode.cursorShape⟩ }.withPens
      fun p => p.savepen true
  else
    let oldpos := s.pos
    let s := { s with
      pos := s.savedPos
      mode := { s.mode with
        cursorVisible := s.savedMode.cursorVisible
        cursorBlink := s.savedMode.cursorBlink
        cursorShape := s.savedMode.cursorShape } }
    let s := s.settermprop (.cursorVisible s.mode.cursorVisible)
    let s := s.settermprop (.cursorBlink s.mode.cursorBlink)
    let s := s.settermprop (.cursorShape s.mode.cursorShape)
    (s.withPens fun p => p.savepen false).updatecursor oldpos true

/-- The whole screen. -/
def screenRect (s : VTermState) : VTermRect := ⟨0, s.rows, 0, s.cols⟩

/-- The screen always switches: webvterm_init allocates the second buffer. -/
def altscreen (s : VTermState) (alt : Bool) : VTermState :=
  let s := s.settermprop (.altscreen alt)
  let s := { s with mode := { s.mode with altScreen := alt } }
  if alt then s.erase s.screenRect else s

/-- `vterm_state_reset` -/
def reset (s : VTermState) (hard : Bool) : VTermState :=
  let s := { s with
    scrollregionStart := 0
    scrollregionEnd := -1
    mode :=
      { keypad := false, cursor := false, autowrap := true, insert := false, newline := false,
        cursorVisible := true, cursorBlink := true, cursorShape := 1, altScreen := false,
        origin := false }
    tabstops := (List.range s.cols.toNat).map fun col => col % 8 = 0 }
  let s := s.withPens Pens.resetpen
  let defaultEnc : VTermEncoding := if s.isUtf8 then .utf8 else .usascii
  let s := { s with
    encoding := fun i => (s.encoding i).select defaultEnc
    glSet := 0
    grSet := 0 }
  let s := s.settermprop (.cursorVisible s.mode.cursorVisible)
  let s := s.settermprop (.cursorBlink s.mode.cursorBlink)
  let s := s.settermprop (.cursorShape s.mode.cursorShape)
  if hard then { s with pos := ⟨0, 0⟩, atPhantom := false }.erase s.screenRect else s

/-- DECALN -/
def alignmentTest (s : VTermState) : VTermState :=
  (List.range s.rows.toNat).foldl (fun s (row : ℕ) =>
    (List.range s.cols.toNat).foldl (fun s (col : ℕ) => s.putglyph [0x45] 1 ⟨row, col⟩) s) s

/-- SCS: a set that is not known leaves the slot as it is. -/
def designate (s : VTermState) (i : Fin 4) (designation : UInt8) : VTermState :=
  match lookupEncoding designation with
  | none => s
  | some enc => { s with encoding := Function.update s.encoding i ((s.encoding i).select enc) }

/-- RIS; the cursor callback is called without a test whether the cursor has moved. -/
def hardReset (s : VTermState) : VTermState :=
  let t := s.reset true
  t.call (.movecursor t.pos s.pos t.mode.cursorVisible)

def onEscape (s : VTermState) (bytes : List UInt8) : VTermState :=
  match bytes with
  | [0x23, 0x38] => s.alignmentTest
  | [0x28, designation] => s.designate 0 designation
  | [0x29, designation] => s.designate 1 designation
  | [0x2a, designation] => s.designate 2 designation
  | [0x2b, designation] => s.designate 3 designation
  | 0x37 :: _ => s.savecursor true
  | 0x38 :: _ => s.savecursor false
  | 0x3d :: _ => { s with mode := { s.mode with keypad := true } }
  | 0x3e :: _ => { s with mode := { s.mode with keypad := false } }
  | 0x63 :: _ => s.hardReset
  | 0x6e :: _ => { s with glSet := 2 }
  | 0x6f :: _ => { s with glSet := 3 }
  | _ => s

/-- Titles; the commands are `0;`, `1;` and `2;`. -/
def onOsc (s : VTermState) (command : List UInt8) : VTermState :=
  match command with
  | 0x30 :: 0x3b :: str => (s.settermprop (.iconname str)).settermprop (.title str)
  | 0x31 :: 0x3b :: str => s.settermprop (.iconname str)
  | 0x32 :: 0x3b :: str => s.settermprop (.title str)
  | _ => s

/-- on_dcs only writes replies. -/
def onDcs (s : VTermState) (_command : List UInt8) : VTermState := s

def resizeTabstops (s : VTermState) (cols : ℤ) : List Bool :=
  if cols ≠ s.cols then
    (List.range cols.toNat).map fun (col : ℕ) =>
      if (col : ℤ) < s.cols then s.tabstops.getD col false else col % 8 = 0
  else s.tabstops

/-- Take the new size and clamp the cursor to it. -/
def fitSize (s : VTermState) (rows cols : ℤ) : VTermState :=
  let s := { s with tabstops := s.resizeTabstops cols, rows := rows, cols := cols }
  let s := if rows ≤ s.pos.row then { s with pos := { s.pos with row := rows - 1 } } else s
  let s := if cols ≤ s.pos.col then { s with pos := { s.pos with col := cols - 1 } } else s
  if s.atPhantom ∧ s.pos.col < cols - 1 then
    { s with atPhantom := false, pos := { s.pos with col := s.pos.col + 1 } }
  else s

def onResize (s : VTermState) (rows cols : ℤ) : VTermState :=
  ((s.fitSize rows cols).call (.resize rows cols)).updatecursor s.pos true

/-- A new state: memory is zero but for the default colours, which webvterm_init sets too
early to have an effect, and what `vterm_obtain_state` sets. -/
def new (rows cols : ℤ) (stack : List ℕ) : VTermState :=
  { rows := rows
    cols := cols
    pos := ⟨0, 0⟩
    atPhantom := false
    scrollregionStart := 0
    scrollregionEnd := 0
    tabstops := List.replicate cols.toNat false
    mouse := ⟨0, 0, 0, 0, .x10⟩
    combineChars := List.replicate combineCharsSize 0
    combineWidth := 0
    combinePos := ⟨0, 0⟩
    mode :=
      { keypad := false, cursor := false, autowrap := false, insert := false, newline := false,
        cursorVisible := false, cursorBlink := false, cursorShape := 0, altScreen := false,
        origin := false }
    encoding := fun _ => ⟨.usascii, ⟨0, 0, 0⟩⟩
    encodingUtf8 := ⟨.utf8, ⟨0, 0, 0⟩⟩
    isUtf8 := false
    glSet := 0
    grSet := 0
    pens :=
      { pen := .zero, saved := .zero, defaultFg := ⟨240, 240, 240⟩, defaultBg := ⟨0, 0, 0⟩,
        fgAnsi := 0, boldIsHighbright := true, reported := [] }
    savedPos := ⟨0, 0⟩
    savedMode := ⟨false, false, 0⟩
    stack := stack
    calls := [] }

end VTermState

end Jterm.Vterm
