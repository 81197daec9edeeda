import Mathlib.Data.Int.Notation
import Mathlib.Data.List.Basic

/-!
The page's matrix of cells and the HTML it keeps for each line. A JavaScript string is
its list of UTF-16 units; `none` is the TypeError of a row, a cell or an element
that does not exist.
-/
namespace Jterm.Page

abbrev JsString := List UInt16

def js (s : String) : JsString := s.toList.map fun c => c.toNat.toUInt16

/-- One cell: `char` is a string of one unit, `reverse` is undefined until setpos. -/
structure Cell where
  char : UInt16
  fg : ℕ
  bg : ℕ
  reverse : Option ℕ
  deriving DecidableEq, Repr

/-- The globals of textmatrix.js; `html` is the innerHTML of the elements l0, l1, … -/
structure Textmatrix where
  displaydata : List (List Cell)
  cursorX : ℤ
  cursorY : ℤ
  rows : ℕ
  cols : ℕ
  html : List JsString
  deriving DecidableEq, Repr

/-- `textmatrix_displaydata[y]` -/
def Textmatrix.row (m : Textmatrix) (y : ℤ) : Option (List Cell) :=
  if 0 ≤ y then m.displaydata[y.toNat]? else none

def charToHtml (c : UInt16) : JsString :=
  if c = 0x26 then js "&amp;" else if c = 0x3c then js "&lt;" else if c = 0x3e then js "&gt;" else [c]

/-- `toString(16)` of a colour, padded to six digits. -/
def hexColour (n : ℕ) : JsString :=
  let digits := (Nat.toDigits 16 n).map fun c => c.toNat.toUInt16
  List.replicate (6 - digits.length) 0x30 ++ digits

/-- The opening tag of a run of equally coloured cells. -/
def openTag (cell : Cell) : JsString :=
  let (fgcol, bgcol) := if cell.reverse = some 1 then (cell.bg, cell.fg) else (cell.fg, cell.bg)
  js "<p style=\"margin:0; padding:0; color: #" ++ hexColour fgcol ++
    js "; background-color: #" ++ hexColour bgcol ++ js "; display: inline-block\">"

/-- A cell after its left neighbour; the cursor's tags are not moved with the run's. -/
def cellHtml (atCursor : Bool) (previous cell : Cell) : JsString :=
  (if atCursor then js "<u>" else []) ++
    (if previous.bg ≠ cell.bg ∨ previous.fg ≠ cell.fg ∨ previous.reverse ≠ cell.reverse then
      js "</p>" ++ openTag cell ++ charToHtml cell.char
    else charToHtml cell.char) ++
    (if atCursor then js "</u>" else [])

/-- The loop of textmatrix_getline from column `cx` on. -/
def getlineLoop (cursorHere : Bool) (cursorX : ℤ) (cx : ℕ) (previous : Cell) : List Cell → JsString
  | [] => []
  | cell :: rest =>
      cellHtml (cursorHere && decide ((cx : ℤ) = cursorX)) previous cell ++
        getlineLoop cursorHere cursorX (cx + 1) cell rest

def textmatrixGetline (m : Textmatrix) (y : ℤ) : Option JsString := do
  let row ← m.row y
  let first ← row.head?
  let cursorHere := decide (y = m.cursorY)
  let atCursor := cursorHere && decide (0 = m.cursorX)
  some (openTag first ++ (if atCursor then js "<u>" else []) ++ charToHtml first.char ++
    (if atCursor then js "</u>" else []) ++
    getlineLoop cursorHere m.cursorX 1 first row.tail ++ js "</p>")

def textmatrixGetlineTxt (m : Textmatrix) (y : ℤ) : Option JsString :=
  (m.row y).map fun row => row.map Cell.char

def textmatrixRedrawLine (m : Textmatrix) (y : ℤ) : Option Textmatrix := do
  let newline ← textmatrixGetline m y
  if y.toNat < m.html.length then some { m with html := m.html.set y.toNat newline } else none

def textmatrixSetpos (m : Textmatrix) (x y : ℕ) (c : UInt16) (bg fg rev : ℕ) :
    Option Textmatrix := do
  let row ← m.displaydata[y]?
  if x < row.length then
    some { m with displaydata := m.displaydata.set y (row.set x ⟨c, fg, bg, some rev⟩) }
  else none

def textmatrixDrawCursor (m : Textmatrix) (x y : ℤ) : Option Textmatrix :=
  let redrawY := if x ≠ m.cursorX ∨ y ≠ m.cursorY then m.cursorY else -1
  let moved := { m with cursorX := x, cursorY := y }
  (if redrawY ≠ -1 then textmatrixRedrawLine moved redrawY else some moved).bind
    fun m => textmatrixRedrawLine m y

end Jterm.Page
