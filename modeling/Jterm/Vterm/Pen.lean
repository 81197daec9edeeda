import Mathlib.Algebra.Ring.Nat
import Mathlib.Data.Int.Notation
import Mathlib.Data.List.GetD

/-!
Arguments of control sequences, colours and the pen (pen.c). An argument is its 32 bits:
31 bits of value, all ones for a missing one, and the flag that sub-arguments follow.
-/
namespace Jterm.Vterm

def csiArgMissing : ℕ := 2 ^ 31 - 1

def csiArgHasMore (a : ℕ) : Bool := decide (2 ^ 31 ≤ a)

/-- `CSI_ARG` -/
def csiArg (a : ℕ) : ℕ := a % 2 ^ 31

def csiArgIsMissing (a : ℕ) : Bool := csiArg a = csiArgMissing

def csiArgOr (a : ℕ) (default : ℤ) : ℤ := if csiArgIsMissing a then default else csiArg a

def csiArgCount (a : ℕ) : ℤ := if csiArgIsMissing a ∨ csiArg a = 0 then 1 else csiArg a

structure VTermColor where
  red : UInt8
  green : UInt8
  blue : UInt8
  deriving DecidableEq, Repr

/-- The pen of the state; the pen of the screen has the same fields. -/
structure VTermPen where
  fg : VTermColor
  bg : VTermColor
  bold : Bool
  underline : ℕ
  italic : Bool
  blink : Bool
  reverse : Bool
  strike : Bool
  font : ℕ
  deriving DecidableEq, Repr

/-- Allocated memory is zero. -/
def VTermPen.zero : VTermPen :=
  ⟨⟨0, 0, 0⟩, ⟨0, 0, 0⟩, false, 0, false, false, false, false, 0⟩

/-- A cell as `vterm_screen_get_cell` returns it, as far as webvterm.c uses it. -/
structure VTermScreenCell where
  chars : List UInt32
  reverse : Bool
  fg : VTermColor
  bg : VTermColor
  deriving DecidableEq, Repr

/-- `VTermAttr` and its value. -/
inductive PenAttr
  | bold (on : Bool)
  | underline (n : ℕ)
  | italic (on : Bool)
  | blink (on : Bool)
  | reverse (on : Bool)
  | strike (on : Bool)
  | font (n : ℕ)
  | foreground (color : VTermColor)
  | background (color : VTermColor)
  deriving DecidableEq, Repr

def VTermPen.set (pen : VTermPen) : PenAttr → VTermPen
  | .bold on => { pen with bold := on }
  | .underline n => { pen with underline := n }
  | .italic on => { pen with italic := on }
  | .blink on => { pen with blink := on }
  | .reverse on => { pen with reverse := on }
  | .strike on => { pen with strike := on }
  | .font n => { pen with font := n }
  | .foreground color => { pen with fg := color }
  | .background color => { pen with bg := color }

/-- Every attribute of a pen, in the order in which savepen reports them. -/
def VTermPen.attrs (pen : VTermPen) : List PenAttr :=
  [.bold pen.bold, .underline pen.underline, .italic pen.italic, .blink pen.blink,
    .reverse pen.reverse, .strike pen.strike, .font pen.font, .foreground pen.fg,
    .background pen.bg]

/-- What pen.c keeps in the state; `reported` is what it has passed to setpenattr. -/
structure Pens where
  pen : VTermPen
  saved : VTermPen
  defaultFg : VTermColor
  defaultBg : VTermColor
  fgAnsi : ℤ
  boldIsHighbright : Bool
  reported : List PenAttr
  deriving DecidableEq, Repr

/-- Set an attribute of the pen and report it. -/
def Pens.put (p : Pens) (attr : PenAttr) : Pens :=
  { p with pen := p.pen.set attr, reported := p.reported ++ [attr] }

def ansiColors : List VTermColor :=
  [⟨0, 0, 0⟩, ⟨224, 0, 0⟩, ⟨0, 224, 0⟩, ⟨224, 224, 0⟩, ⟨0, 0, 224⟩, ⟨224, 0, 224⟩, ⟨0, 224, 224⟩,
    ⟨224, 224, 224⟩, ⟨128, 128, 128⟩, ⟨255, 64, 64⟩, ⟨64, 255, 64⟩, ⟨255, 255, 64⟩,
    ⟨64, 64, 255⟩, ⟨255, 64, 255⟩, ⟨64, 255, 255⟩, ⟨255, 255, 255⟩]

def ramp6 : List UInt8 := [0x00, 0x33, 0x66, 0x99, 0xcc, 0xff]

def ramp24 : List UInt8 :=
  [0x00, 0x0b, 0x16, 0x21, 0x2c, 0x37, 0x42, 0x4d, 0x58, 0x63, 0x6e, 0x79,
    0x85, 0x90, 0x9b, 0xa6, 0xb1, 0xbc, 0xc7, 0xd2, 0xdd, 0xe8, 0xf3, 0xff]

def lookupColourAnsi (index : ℤ) (col : VTermColor) : VTermColor :=
  if 0 ≤ index ∧ index < 16 then ansiColors.getD index.toNat col else col

/-- `memory` is what lies at the `args` pointer; `argcount` can be -1. -/
def lookupColour (palette : ℕ) (memory : List ℕ) (argcount : ℤ) (col : VTermColor) :
    ℤ × VTermColor :=
  if palette = 2 then
    if argcount < 3 then (argcount, col)
    else
      (3, ⟨(csiArg (memory.getD 0 0)).toUInt8, (csiArg (memory.getD 1 0)).toUInt8,
        (csiArg (memory.getD 2 0)).toUInt8⟩)
  else if palette = 5 then
    let index := if argcount ≠ 0 then csiArgOr (memory.getD 0 0) (-1) else -1
    let color :=
      if 0 ≤ index ∧ index < 16 then lookupColourAnsi index col
      else if 16 ≤ index ∧ index < 232 then
        let cube := (index - 16).toNat
        ⟨ramp6.getD (cube / 6 / 6 % 6) 0, ramp6.getD (cube / 6 % 6) 0, ramp6.getD (cube % 6) 0⟩
      else if 232 ≤ index ∧ index < 256 then
        let grey := ramp24.getD (index - 232).toNat 0
        ⟨grey, grey, grey⟩
      else col
    (if argcount ≠ 0 then 1 else 0, color)
  else (0, col)

def Pens.setForegroundAnsi (p : Pens) (col : ℤ) : Pens :=
  p.put (.foreground (lookupColourAnsi col p.pen.fg))

def Pens.setBackgroundAnsi (p : Pens) (col : ℤ) : Pens :=
  p.put (.background (lookupColourAnsi col p.pen.bg))

/-- `vterm_state_resetpen` -/
def Pens.resetpen (p : Pens) : Pens :=
  let p := ((((((p.put (.bold false)).put (.underline 0)).put (.italic false)).put
    (.blink false)).put (.reverse false)).put (.strike false)).put (.font 0)
  ({ p with fgAnsi := -1 }.put (.foreground p.defaultFg)).put (.background p.defaultBg)

/-- `vterm_state_savepen` -/
def Pens.savepen (p : Pens) (save : Bool) : Pens :=
  if save then { p with saved := p.pen }
  else { p with pen := p.saved, reported := p.reported ++ p.saved.attrs }

/-- The cases of vterm_state_setpen that look at one argument. -/
def Pens.setpenArg (p : Pens) (arg : ℕ) : Pens :=
  if arg = csiArgMissing ∨ arg = 0 then p.resetpen
  else if arg = 1 then
    let p := p.put (.bold true)
    if -1 < p.fgAnsi ∧ p.boldIsHighbright then p.setForegroundAnsi (p.fgAnsi + 8) else p
  else if arg = 3 then p.put (.italic true)
  else if arg = 4 then p.put (.underline 1)
  else if arg = 5 then p.put (.blink true)
  else if arg = 7 then p.put (.reverse true)
  else if arg = 9 then p.put (.strike true)
  else if 10 ≤ arg ∧ arg ≤ 19 then p.put (.font (arg - 10))
  else if arg = 21 then p.put (.underline 2)
  else if arg = 22 then p.put (.bold false)
  else if arg = 23 then p.put (.italic false)
  else if arg = 24 then p.put (.underline 0)
  else if arg = 25 then p.put (.blink false)
  else if arg = 27 then p.put (.reverse false)
  else if arg = 29 then p.put (.strike false)
  else if 30 ≤ arg ∧ arg ≤ 37 then
    let value : ℤ := arg - 30
    { p with fgAnsi := value }.setForegroundAnsi
      (if p.pen.bold ∧ p.boldIsHighbright then value + 8 else value)
  else if arg = 39 then { p with fgAnsi := -1 }.put (.foreground p.defaultFg)
  else if 40 ≤ arg ∧ arg ≤ 47 then p.setBackgroundAnsi (arg - 40)
  else if arg = 49 then p.put (.background p.defaultBg)
  else if 90 ≤ arg ∧ arg ≤ 97 then { p with fgAnsi := -1 }.setForegroundAnsi (arg - 90 + 8)
  else if 100 ≤ arg ∧ arg ≤ 107 then p.setBackgroundAnsi (arg - 100 + 8)
  else p

/-- `while(CSI_ARG_HAS_MORE(args[argi++]));` -/
def skipMore : List ℕ → ℕ
  | [] => 1
  | a :: memory => if csiArgHasMore a then skipMore memory + 1 else 1

/-- The loop of vterm_state_setpen. `memory` holds the `argcount` arguments and what follows
them on the stack. Every pass moves `argi` on, so that `argcount` passes are enough. -/
def setpenLoop (memory : List ℕ) (argcount : ℕ) : ℕ → ℕ → Pens → Pens
  | 0, _, p => p
  | passes + 1, argi, p =>
    if argcount ≤ argi then p
    else
      let arg := csiArg (memory.getD argi 0)
      let palette := csiArg (memory.getD (argi + 1) 0)
      let left : ℤ := argcount - argi - 2
      let (p, argi) :=
        if arg = 38 then
          let (used, fg) := lookupColour palette (memory.drop (argi + 2)) left p.pen.fg
          ({ p with fgAnsi := -1 }.put (.foreground fg), (argi + (1 + used)).toNat)
        else if arg = 48 then
          let (used, bg) := lookupColour palette (memory.drop (argi + 2)) left p.pen.bg
          (p.put (.background bg), (argi + (1 + used)).toNat)
        else (p.setpenArg arg, argi)
      setpenLoop memory argcount passes (argi + skipMore (memory.drop argi)) p

def Pens.setpen (p : Pens) (args stack : List ℕ) : Pens :=
  setpenLoop (args ++ stack) args.length args.length 0 p

end Jterm.Vterm
