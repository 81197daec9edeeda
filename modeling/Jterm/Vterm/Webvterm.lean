import Jterm.Vterm.Csi
import Jterm.Vterm.Parser
import Jterm.Vterm.Screen

/-!
The terminal of the page (webvterm.c): libvterm's parser, state and screen, and what the
page does to them.
-/
namespace Jterm.Vterm

open Runs

/-- What a callback of the parser does to the state (`parser_callbacks` of state.c). -/
def VTermState.stateCall (s : VTermState) : ParserCall → VTermState
  | .text bytes => (s.onText bytes).1
  | .control c => s.onControl c
  | .escape str => s.onEscape str
  | .csi str command => s.onCsi (parseCsi str command)
  | .osc str => s.onOsc str
  | .dcs str => s.onDcs str

/-- The state and the screen that executes its calls. -/
structure Display where
  state : VTermState
  screen : VTermScreen

/-- Run a function of the state; the screen does what it asks for. -/
def Display.apply (d : Display) (f : VTermState → VTermState) : Display :=
  let state := f { d.state with calls := [] }
  { state := { state with calls := [] }
    screen := run VTermScreen.exec d.screen state.calls }

def Display.call (d : Display) (c : ParserCall) : Display := d.apply fun s => s.stateCall c

/-- The backup callbacks of webvterm.c do nothing. -/
def parserCallbacks : ParserCallbacks Display where
  isUtf8 d := d.state.isUtf8
  text d bytes := (d.call (.text bytes), (d.state.onText bytes).2)
  control d c := d.call (.control c)
  escape d str := d.call (.escape str)
  csi d str command := d.call (.csi str command)
  osc d str := d.call (.osc str)
  dcs d str := d.call (.dcs str)

theorem parserCallbacks_call (d : Display) (c : ParserCall) :
    parserCallbacks.call d c = d.call c := by
  cases c <;> rfl

structure VTerm where
  parser : Parser
  display : Display

def VTermScreen.new (rows cols : ℤ) (lowMemory : ℤ → ScreenCell) : VTermScreen :=
  { rows := rows
    cols := cols
    damaged := ⟨-1, 0, 0, 0⟩
    pendingScrollrect := ⟨-1, 0, 0, 0⟩
    pendingScrollDownward := 0
    pendingScrollRightward := 0
    globalReverse := false
    buffer0 := fun _ _ => .blank .zero
    buffer1 := fun _ _ => .blank .zero
    onBuffer1 := false
    pen := .zero
    lowMemory := lowMemory
    damageLog := []
    scrollPushes := [] }

/-- The reset runs before UTF-8 is switched on, so that it selects US-ASCII. -/
def webvtermInit (cols rows : ℤ) (lowMemory : ℤ → ScreenCell) (stack : List ℕ) : VTerm :=
  let display := Display.apply ⟨.new rows cols stack, .new rows cols lowMemory⟩ fun s => s.reset true
  { parser := ⟨.normal, []⟩
    display :=
      { state := { display.state with isUtf8 := true }
        screen := display.screen.flushDamage } }

def webvtermRecv (t : VTerm) (bytes : List UInt8) : VTerm :=
  let (parser, display) := pushBytes parserCallbacks t.parser t.display bytes
  ⟨parser, display⟩

def webvtermFlushDamage (t : VTerm) : VTerm :=
  { t with display := { t.display with screen := t.display.screen.flushDamage } }

def webvtermResize (t : VTerm) (c r : ℤ) : VTerm :=
  { t with display := t.display.apply fun s => s.onResize r c }

/-- What the page does to the terminal. -/
inductive VTermEvent
  | recv (bytes : List UInt8)
  | flush
  | resize (c r : ℤ)
  deriving DecidableEq, Repr

def vtermStep (t : VTerm) : VTermEvent → VTerm
  | .recv bytes => webvtermRecv t bytes
  | .flush => webvtermFlushDamage t
  | .resize c r => webvtermResize t c r

/-- The callbacks of the parser for the bytes of one call. -/
def recvCalls (t : VTerm) (bytes : List UInt8) : List ParserCall :=
  parserCalls parserCallbacks t.parser t.display bytes

theorem webvtermRecv_display (t : VTerm) (bytes : List UInt8) :
    (webvtermRecv t bytes).display = run Display.call t.display (recvCalls t bytes) := by
  have hcalls := pushBytes_calls parserCallbacks t.parser t.display bytes
  have hcall : parserCallbacks.call = Display.call := by
    funext d c
    exact parserCallbacks_call d c
  rw [hcall] at hcalls
  exact hcalls

/-- What callbacks of the parser make the state ask of the screen. -/
def displayCalls (d : Display) : List ParserCall → List ScreenCall
  | [] => []
  | c :: cs =>
    ({ d.state with calls := [] }.stateCall c).calls ++ displayCalls (d.call c) cs

theorem run_call_screen (d : Display) (cs : List ParserCall) :
    (run Display.call d cs).screen = run VTermScreen.exec d.screen (displayCalls d cs) := by
  induction cs generalizing d with
  | nil => rfl
  | cons c cs ih =>
    have hfirst : (d.call c).screen = run VTermScreen.exec d.screen
        ({ d.state with calls := [] }.stateCall c).calls := rfl
    simp only [displayCalls, run, List.foldl_cons, List.foldl_append] at ih hfirst ⊢
    rw [ih (d.call c), hfirst]

/-- Everything the screen is asked to do in an event. -/
def screenCalls (t : VTerm) : VTermEvent → List ScreenCall
  | .recv bytes => displayCalls t.display (recvCalls t bytes)
  | .flush => [.flushDamage]
  | .resize c r => ({ t.display.state with calls := [] }.onResize r c).calls

theorem vtermStep_screen (t : VTerm) (e : VTermEvent) :
    (vtermStep t e).display.screen = run VTermScreen.exec t.display.screen (screenCalls t e) := by
  cases e with
  | recv bytes =>
    change (webvtermRecv t bytes).display.screen = _
    rw [webvtermRecv_display]
    exact run_call_screen t.display (recvCalls t bytes)
  | flush => rfl
  | resize c r => rfl

end Jterm.Vterm
