import Jterm.Vterm.State

/-!
Control sequences: from the bytes between CSI and the final byte to the arguments
(do_string_csi in parser.c), and what each function does (on_csi in state.c).
-/
namespace Jterm.Vterm

def csiArgsMax : ℕ := 16

/-- Room for leader and intermediate bytes, without their terminators. -/
def csiLeaderMax : ℕ := 15
def csiIntermedMax : ℕ := 15

/-- A control sequence as the csi callback gets it; `args` is not empty. -/
structure CsiSequence where
  leader : List UInt8
  args : List ℕ
  intermed : List UInt8
  command : UInt8
  deriving DecidableEq, Repr

def isLeader (b : UInt8) : Bool := 0x3c ≤ b ∧ b ≤ 0x3f

/-- One digit of an argument, in a long of 32 bits. -/
def addDigit (a : ℕ) (b : UInt8) : ℕ :=
  ((if a = csiArgMissing then 0 else a) * 10 + (b.toNat - 0x30)) % 2 ^ 32

/-- The loop over digits and separators; what it leaves unread is returned. -/
def parseArgs (argcount : ℕ) : List UInt8 → ℕ → List ℕ → List ℕ × List UInt8
  | [], _, args => (args, [])
  | b :: bytes, argi, args =>
    if argcount ≤ argi then (args, b :: bytes)
    else if 0x30 ≤ b ∧ b ≤ 0x39 then
      parseArgs argcount bytes argi (args.set argi (addDigit (args.getD argi 0) b))
    else if b = 0x3a then
      parseArgs argcount bytes (argi + 1)
        (args.set argi (args.getD argi 0 % 2 ^ 31 + 2 ^ 31))
    else if b = 0x3b then parseArgs argcount bytes (argi + 1) args
    else (args, b :: bytes)

/-- do_string_csi, up to the callback. -/
def parseCsi (str : List UInt8) (command : UInt8) : CsiSequence :=
  let leader := (str.takeWhile isLeader).take csiLeaderMax
  let separators := (str.dropWhile isLeader).countP fun b => b = 0x3b ∨ b = 0x3a
  let argcount := min (1 + separators) csiArgsMax
  let (args, rest) :=
    parseArgs argcount (str.drop leader.length) 0 (List.replicate argcount csiArgMissing)
  let intermed := (rest.takeWhile fun b => b &&& 0xf0 = 0x20).take csiIntermedMax
  ⟨leader, args, intermed, command⟩

/-- The cases of on_csi. -/
inductive CsiFunction
  | ich
  | cuu
  | cud
  | cuf
  | cub
  | cnl
  | cpl
  | cha
  | cup
  | cht
  | ed
  | el
  | il
  | dl
  | dch
  | su
  | sd
  | ech
  | cbt
  | hpa
  | hpr
  | da
  | daSecondary
  | vpa
  | vpr
  | hvp
  | tbc
  | sm
  | decSm
  | hpb
  | vpb
  | rm
  | decRm
  | sgr
  | dsr
  | decstr
  | decscusr
  | decstbm
  | save
  | restore
  deriving DecidableEq, Repr

/-- The switch of on_csi, by intermediate byte, leader and final byte. -/
def csiFunction (intermed leader command : ℕ) : Option CsiFunction :=
  match intermed, leader, command with
  | 0, 0, 0x40 => some .ich
  | 0, 0, 0x41 => some .cuu
  | 0, 0, 0x42 => some .cud
  | 0, 0, 0x43 => some .cuf
  | 0, 0, 0x44 => some .cub
  | 0, 0, 0x45 => some .cnl
  | 0, 0, 0x46 => some .cpl
  | 0, 0, 0x47 => some .cha
  | 0, 0, 0x48 => some .cup
  | 0, 0, 0x49 => some .cht
  | 0, 0, 0x4a => some .ed
  | 0, 0, 0x4b => some .el
  | 0, 0, 0x4c => some .il
  | 0, 0, 0x4d => some .dl
  | 0, 0, 0x50 => some .dch
  | 0, 0, 0x53 => some .su
  | 0, 0, 0x54 => some .sd
  | 0, 0, 0x58 => some .ech
  | 0, 0, 0x5a => some .cbt
  | 0, 0, 0x60 => some .hpa
  | 0, 0, 0x61 => some .hpr
  | 0, 0, 0x63 => some .da
  | 0, 0x3e, 0x63 => some .daSecondary
  | 0, 0, 0x64 => some .vpa
  | 0, 0, 0x65 => some .vpr
  | 0, 0, 0x66 => some .hvp
  | 0, 0, 0x67 => some .tbc
  | 0, 0, 0x68 => some .sm
  | 0, 0x3f, 0x68 => some .decSm
  | 0, 0, 0x6a => some .hpb
  | 0, 0, 0x6b => some .vpb
  | 0, 0, 0x6c => some .rm
  | 0, 0x3f, 0x6c => some .decRm
  | 0, 0, 0x6d => some .sgr
  | 0, 0, 0x6e => some .dsr
  | 0, 0x21, 0x70 => some .decstr
  | 0x20, 0, 0x71 => some .decscusr
  | 0, 0, 0x72 => some .decstbm
  | 0, 0, 0x73 => some .save
  | 0, 0, 0x75 => some .restore
  | _, _, _ => none

/-- At most one leader byte, `?` or `>`, and at most one intermediate byte, a space. -/
def CsiSequence.function (csi : CsiSequence) : Option CsiFunction :=
  let leader : Option ℕ :=
    match csi.leader with
    | [] => some 0
    | [b] => if b = 0x3f ∨ b = 0x3e then some b.toNat else none
    | _ => none
  let intermed : Option ℕ :=
    match csi.intermed with
    | [] => some 0
    | [b] => if b = 0x20 then some b.toNat else none
    | _ => none
  match intermed, leader with
  | some i, some l => csiFunction i l csi.command.toNat
  | _, _ => none

namespace VTermState

/-- `set_mode` -/
def setMode (s : VTermState) (num : ℕ) (val : Bool) : VTermState :=
  if num = 4 then { s with mode := { s.mode with insert := val } }
  else if num = 20 then { s with mode := { s.mode with newline := val } }
  else s

/-- DECOM -/
def setOrigin (s : VTermState) (val : Bool) : VTermState :=
  { s with
    mode := { s.mode with origin := val }
    pos := ⟨if val then s.scrollregionStart else 0, 0⟩ }.updatecursor s.pos true

/-- The mouse modes 1000, 1002 and 1003. -/
def setMouse (s : VTermState) (num : ℕ) (val : Bool) : VTermState :=
  let s :=
    if val then
      { s with mouse :=
          { col := 0, row := 0, buttons := 0, protocol := .x10
            flags := if num = 1002 then 1 else if num = 1003 then 2 else 0 } }
    else s
  s.call (.setmousefunc val)

def setMouseProtocol (s : VTermState) (protocol : MouseProtocol) (val : Bool) : VTermState :=
  { s with mouse := { s.mouse with protocol := if val then protocol else .x10 } }

/-- `set_dec_mode` -/
def setDecMode (s : VTermState) (num : ℕ) (val : Bool) : VTermState :=
  match num with
  | 1 => { s with mode := { s.mode with cursor := val } }
  | 5 => s.settermprop (.reverse val)
  | 6 => s.setOrigin val
  | 7 => { s with mode := { s.mode with autowrap := val } }
  | 12 => { s with mode := { s.mode with cursorBlink := val } }.settermprop (.cursorBlink val)
  | 25 => { s with mode := { s.mode with cursorVisible := val } }.settermprop (.cursorVisible val)
  | 1000 | 1002 | 1003 => s.setMouse num val
  | 1005 => s.setMouseProtocol .utf8 val
  | 1006 => s.setMouseProtocol .sgr val
  | 1015 => s.setMouseProtocol .rxvt val
  | 1047 => s.altscreen val
  | 1048 => s.savecursor val
  | 1049 => (s.altscreen val).savecursor val
  | _ => s

/-- A cursor movement by the server cancels the phantom column. -/
def moveTo (s : VTermState) (row col : ℤ) : VTermState :=
  { s with pos := ⟨row, col⟩, atPhantom := false }

/-- The row an absolute movement names. -/
def absoluteRow (s : VTermState) (row : ℤ) : ℤ :=
  if s.mode.origin then wrap32 (row - 1 + s.scrollregionStart) else row - 1

/-- The second argument of CUP, HVP and DECSTBM. -/
def secondArg (args : List ℕ) (default : ℤ) : ℤ :=
  if args.length < 2 then default else csiArgOr (args.getD 1 0) default

def eraseInDisplay (s : VTermState) (val : ℕ) : VTermState :=
  if val = csiArgMissing ∨ val = 0 then
    let t := if s.pos.col < s.cols then s.erase ⟨s.pos.row, s.pos.row + 1, s.pos.col, s.cols⟩ else s
    if s.pos.row + 1 < s.rows then t.erase ⟨s.pos.row + 1, s.rows, 0, s.cols⟩ else t
  else if val = 1 then
    let t := if 0 < s.cols then s.erase ⟨0, s.pos.row, 0, s.cols⟩ else s
    t.erase ⟨s.pos.row, s.pos.row + 1, 0, s.pos.col + 1⟩
  else if val = 2 then s.erase s.screenRect
  else s

/-- The columns EL erases. -/
def eraseInLineCols (s : VTermState) (val : ℕ) : Option (ℤ × ℤ) :=
  if val = csiArgMissing ∨ val = 0 then some (s.pos.col, s.cols)
  else if val = 1 then some (0, s.pos.col + 1)
  else if val = 2 then some (0, s.cols)
  else none

def eraseInLine (s : VTermState) (val : ℕ) : Option VTermState :=
  (s.eraseInLineCols val).map fun (startCol, endCol) =>
    if startCol < endCol then s.erase ⟨s.pos.row, s.pos.row + 1, startCol, endCol⟩ else s

/-- From the cursor's row to the bottom margin. -/
def linesBelow (s : VTermState) : VTermRect := ⟨s.pos.row, s.scrollregionBottom, 0, s.cols⟩

/-- From the cursor to the end of its row. -/
def lineRight (s : VTermState) : VTermRect := ⟨s.pos.row, s.pos.row + 1, s.pos.col, s.cols⟩

def tabClear (s : VTermState) (val : ℤ) : Option VTermState :=
  if val = 0 then some (s.clearColTabstop s.pos.col)
  else if val = 3 ∨ val = 5 then
    some ((List.range s.cols.toNat).foldl (fun s (col : ℕ) => s.clearColTabstop col) s)
  else if val = 1 ∨ val = 2 ∨ val = 4 then some s
  else none

/-- DECSCUSR -/
def setCursorShape (s : VTermState) (val : ℤ) : VTermState :=
  let mode :=
    if val = 0 ∨ val = 1 then { s.mode with cursorBlink := true, cursorShape := 1 }
    else if val = 2 then { s.mode with cursorBlink := false, cursorShape := 1 }
    else if val = 3 then { s.mode with cursorBlink := true, cursorShape := 2 }
    else if val = 4 then { s.mode with cursorBlink := false, cursorShape := 2 }
    else s.mode
  ({ s with mode := mode }.settermprop (.cursorBlink mode.cursorBlink)).settermprop
    (.cursorShape mode.cursorShape)

/-- DECSTBM; a region of the whole screen is kept as an unbounded one. -/
def setScrollregion (s : VTermState) (args : List ℕ) : VTermState :=
  let start := csiArgOr (args.getD 0 0) 1 - 1
  let bottom := secondArg args (-1)
  { s with
    scrollregionStart := start
    scrollregionEnd := if start = 0 ∧ bottom = s.rows then -1 else bottom }

/-- The cases of on_csi; `none` where it returns without touching the cursor. -/
def csiCase (s : VTermState) (args : List ℕ) : CsiFunction → Option VTermState
  | .ich => some (s.scroll s.lineRight 0 (-csiArgCount (args.getD 0 0)))
  | .cuu => some (s.moveTo (wrap32 (s.pos.row - csiArgCount (args.getD 0 0))) s.pos.col)
  | .cud => some (s.moveTo (wrap32 (s.pos.row + csiArgCount (args.getD 0 0))) s.pos.col)
  | .cuf => some (s.moveTo s.pos.row (wrap32 (s.pos.col + csiArgCount (args.getD 0 0))))
  | .cub => some (s.moveTo s.pos.row (wrap32 (s.pos.col - csiArgCount (args.getD 0 0))))
  | .cnl => some (s.moveTo (wrap32 (s.pos.row + csiArgCount (args.getD 0 0))) 0)
  | .cpl => some (s.moveTo (wrap32 (s.pos.row - csiArgCount (args.getD 0 0))) 0)
  | .cha => some (s.moveTo s.pos.row (csiArgOr (args.getD 0 0) 1 - 1))
  | .cup => some (s.moveTo (s.absoluteRow (csiArgOr (args.getD 0 0) 1)) (secondArg args 1 - 1))
  | .cht => some (s.tab (csiArgCount (args.getD 0 0)) 1)
  | .ed => some (s.eraseInDisplay (csiArg (args.getD 0 0)))
  | .el => s.eraseInLine (csiArg (args.getD 0 0))
  | .il => some (s.scroll s.linesBelow (-csiArgCount (args.getD 0 0)) 0)
  | .dl => some (s.scroll s.linesBelow (csiArgCount (args.getD 0 0)) 0)
  | .dch => some (s.scroll s.lineRight 0 (csiArgCount (args.getD 0 0)))
  | .su => some (s.scroll s.scrollregion (csiArgCount (args.getD 0 0)) 0)
  | .sd => some (s.scroll s.scrollregion (-csiArgCount (args.getD 0 0)) 0)
  | .ech =>
    some (s.erase ⟨s.pos.row, s.pos.row + 1, s.pos.col,
      wrap32 (s.pos.col + csiArgCount (args.getD 0 0))⟩)
  | .cbt => some (s.tab (csiArgCount (args.getD 0 0)) (-1))
  | .hpa => some (s.moveTo s.pos.row (csiArgOr (args.getD 0 0) 1 - 1))
  | .hpr => some (s.moveTo s.pos.row (wrap32 (s.pos.col + csiArgCount (args.getD 0 0))))
  | .da => some s
  | .daSecondary => some s
  | .vpa => some (s.moveTo (s.absoluteRow (csiArgOr (args.getD 0 0) 1)) s.pos.col)
  | .vpr => some (s.moveTo (wrap32 (s.pos.row + csiArgCount (args.getD 0 0))) s.pos.col)
  | .hvp => some (s.moveTo (s.absoluteRow (csiArgOr (args.getD 0 0) 1)) (secondArg args 1 - 1))
  | .tbc => s.tabClear (csiArgOr (args.getD 0 0) 0)
  | .sm =>
    some (if csiArgIsMissing (args.getD 0 0) then s else s.setMode (csiArg (args.getD 0 0)) true)
  | .decSm =>
    some (if csiArgIsMissing (args.getD 0 0) then s
      else s.setDecMode (csiArg (args.getD 0 0)) true)
  | .hpb => some (s.moveTo s.pos.row (wrap32 (s.pos.col - csiArgCount (args.getD 0 0))))
  | .vpb => some (s.moveTo (wrap32 (s.pos.row - csiArgCount (args.getD 0 0))) s.pos.col)
  | .rm =>
    some (if csiArgIsMissing (args.getD 0 0) then s else s.setMode (csiArg (args.getD 0 0)) false)
  | .decRm =>
    some (if csiArgIsMissing (args.getD 0 0) then s
      else s.setDecMode (csiArg (args.getD 0 0)) false)
  | .sgr => some (s.withPens fun p => p.setpen args s.stack)
  | .dsr => some s
  | .decstr => some (s.reset false)
  | .decscusr => some (s.setCursorShape (csiArgOr (args.getD 0 0) 1))
  | .decstbm => some (s.setScrollregion args)
  | .save => some (s.savecursor true)
  | .restore => some (s.savecursor false)

/-- The bounds at the end of on_csi. -/
def clampCursor (s : VTermState) : VTermState :=
  let col := min (max s.pos.col 0) (s.cols - 1)
  let row :=
    if s.mode.origin then min (max s.pos.row s.scrollregionStart) (s.scrollregionEnd - 1)
    else min (max s.pos.row 0) (s.rows - 1)
  { s with pos := ⟨row, col⟩ }

def onCsi (s : VTermState) (csi : CsiSequence) : VTermState :=
  match csi.function.bind (s.csiCase csi.args) with
  | none => s
  | some t => t.clampCursor.updatecursor s.pos true

end VTermState

example : parseCsi (("?1;2:3 ".toList).map fun c => c.toNat.toUInt8) 0x71 =
    ⟨[0x3f], [1, 2 + 2 ^ 31, 3], [0x20], 0x71⟩ := by decide

end Jterm.Vterm
