import Jterm.Page.Repaint
import Jterm.Vterm.Prescroll

/-!
What is copied between the page and the compiled code. The buffers are as large as two
languages have made them once; what a transfer stores in them is as long as the window is wide,
the server sends, or the user types. For each buffer there is a longest transfer that fits.
-/
namespace Jterm.Page

open Vterm

/-- The two strings of do_connect are in memory of their own size. -/
inductive Buffer
  | text
  | bg
  | fg
  | rev
  | rowdata
  | scrolloff
  | read
  | strptr
  | usernameptr (size : ℕ)
  | passwordptr (size : ℕ)
  | username
  | password
  deriving DecidableEq, Repr

/-- How many elements a buffer has. -/
def Buffer.size : Buffer → ℕ
  | .text | .bg | .fg | .rev => 256
  | .rowdata => 1024
  | .scrolloff => 1000
  | .read => 1024
  | .strptr => 2048
  | .usernameptr size | .passwordptr size => size
  | .username | .password => 1024

inductive Datum
  | byte (b : UInt8)
  | number (n : ℕ)
  | cell (c : VTermScreenCell)
  deriving DecidableEq, Repr

structure Store where
  buffer : Buffer
  index : ℕ
  value : Datum
  deriving DecidableEq, Repr

def Store.Inside (store : Store) : Prop := store.index < store.buffer.size

instance (store : Store) : Decidable store.Inside := inferInstanceAs (Decidable (_ < _))

/-- A loop that fills a buffer from its first element on. -/
def fill (buffer : Buffer) (values : List Datum) : List Store :=
  values.zipIdx.map fun (value, n) => ⟨buffer, n, value⟩

/-- webvterm.c between two calls; `nullRow` is what lies at the null pointer. -/
structure Webvterm where
  screen : VTermScreen
  rowdataBuffer : ℕ → VTermScreenCell
  nullRow : ℕ → VTermScreenCell

namespace Webvterm

/-- The cells that grab_row stores: vterm_screen_get_cell stores none outside the screen. -/
def grabRowStores (s : Webvterm) (trow : ℤ) : List Store :=
  if 0 ≤ trow then
    ((List.range s.screen.cols.toNat).filter fun (n : ℕ) => s.screen.Inside trow n).map fun n =>
      ⟨.rowdata, n, .cell (s.screen.getCell trow n)⟩
  else []

/-- The row that grab_row returns, and what it leaves in `len`. -/
def grabRow (s : Webvterm) (trow len : ℤ) : (ℕ → VTermScreenCell) × ℤ :=
  if 0 ≤ trow then
    (fun n => if s.screen.Inside trow n then s.screen.getCell trow n else s.rowdataBuffer n,
      s.screen.cols)
  else
    let (line, len) := (scrollback s.screen.scrollPushes).grabRow (-trow).toNat len
    (fun n => (line.bind (·[n]?)).getD (s.nullRow n), len)

end Webvterm

/-- A pass of the loop of webvterm_get_row. -/
def cellStores (cell : VTermScreenCell) (n : ℕ) : List Store :=
  let c := (cell.chars.headD 0).toUInt8
  ⟨.text, n, .byte c⟩ :: (if c = 0 then [⟨.text, n, .byte 0x20⟩] else []) ++
    [⟨.text, n + 1, .byte 0⟩, ⟨.bg, n, .number (colourNumber cell.bg)⟩,
      ⟨.fg, n, .number (colourNumber cell.fg)⟩, ⟨.rev, n, .number cell.reverse.toNat⟩]

/-- webvterm_get_row, for which the page gives the size of its text buffer as `len`. -/
def getRowStores (s : Webvterm) (crow : ℤ) : List Store :=
  let (row, len) := s.grabRow crow 256
  s.grabRowStores crow ++
    (List.range (cellsRead s.screen.cols len)).flatMap fun n => cellStores (row n) n

/-- screen_prescroll fills `scrolloff` with one row after the other. -/
def prescrollStores (s : VTermScreen) (rect : VTermRect) : List Store :=
  if rect.startRow ≠ 0 ∨ rect.startCol ≠ 0 ∨ rect.endCol ≠ s.cols then []
  else
    (List.range rect.endRow.toNat).flatMap fun (row : ℕ) => fill .scrolloff
      ((List.range s.cols.toNat).map fun (col : ℕ) => .cell (s.getCell row col))

/-- A pass of on_recv: webssh2_read stores a zero, libssh2 `len` bytes, and webvterm_recv, which is
called where there are any, the terminator. -/
def recvStores (len : ℤ) (data : ℕ → UInt8) : List Store :=
  ⟨.read, 0, .byte 0⟩ :: fill .read ((List.range len.toNat).map fun n => .byte (data n)) ++
    if 0 < len then [⟨.read, len.toNat, .byte 0⟩] else []

def writeAsciiToMemory (str : JsString) (buffer : Buffer) : List Store :=
  fill buffer (str.map (fun c => .byte c.toUInt8) ++ [.byte 0])

/-- ssh_send, which writes a zero of its own behind the one of writeAsciiToMemory. -/
def sshSendStores (data : JsString) : List Store :=
  writeAsciiToMemory data .strptr ++ [⟨.strptr, data.length + 1, .byte 0⟩]

/-- A string of the page as C reads it. -/
def cString (str : JsString) : List UInt8 := (str.map UInt16.toUInt8).takeWhile (· ≠ 0)

def strcpy (buffer : Buffer) (str : List UInt8) : List Store :=
  fill buffer (str.map .byte ++ [.byte 0])

/-- do_connect up to webssh2_setuserpass, which overwrites the strings it has copied. -/
def setuserpassStores (username password : JsString) : List Store :=
  let usernameptr := .usernameptr (username.length + 1)
  let passwordptr := .passwordptr (password.length + 1)
  writeAsciiToMemory username usernameptr ++ writeAsciiToMemory password passwordptr ++
    strcpy .username (cString username) ++ strcpy .password (cString password) ++
    fill usernameptr (List.replicate (cString username).length (.byte 0)) ++
    fill passwordptr (List.replicate (cString password).length (.byte 0))

inductive Transfer
  | getRow (crow : ℤ)
  | prescroll (rect : VTermRect)
  | recv (len : ℤ) (data : ℕ → UInt8)
  | sshSend (data : JsString)
  | setuserpass (username password : JsString)

def Transfer.stores (s : Webvterm) : Transfer → List Store
  | .getRow crow => getRowStores s crow
  | .prescroll rect => prescrollStores s.screen rect
  | .recv len data => recvStores len data
  | .sshSend data => sshSendStores data
  | .setuserpass username password => setuserpassStores username password

/-- How many cells of a row webvterm_get_row copies. Row -k is the line that the lookup finds in the
ring; where it finds none, the page's size is left. -/
def Webvterm.rowCells (s : Webvterm) (crow : ℤ) : ℕ :=
  let pushed := s.screen.scrollPushes
  if 0 ≤ crow then s.screen.cols.toNat
  else min s.screen.cols.toNat
    (if pushed = [] ∨ scrollBufferInitialSize < -crow then 256
    else ((newest pushed (if -crow = scrollBufferInitialSize then 0 else (-crow).toNat)).getD
      []).length)

/-- The transfer is no longer than the buffer allows. -/
def Transfer.Fits (s : Webvterm) : Transfer → Buffer → Prop
  | .getRow crow, .text => s.rowCells crow ≤ 255
  | .getRow crow, .bg | .getRow crow, .fg | .getRow crow, .rev => s.rowCells crow ≤ 256
  | .getRow crow, .rowdata => 0 ≤ crow ∧ crow < s.screen.rows → s.screen.cols ≤ 1024
  | .prescroll rect, .scrolloff => s.screen.AtTop rect ∧ 1 ≤ rect.endRow → s.screen.cols ≤ 1000
  | .recv len _, .read => len ≤ 1023
  | .sshSend data, .strptr => data.length ≤ 2046
  | .setuserpass username _, .username => (cString username).length ≤ 1023
  | .setuserpass _ password, .password => (cString password).length ≤ 1023
  | _, _ => True

/-- What is stored in one buffer stays inside it. -/
def InsideOf (buffer : Buffer) (stores : List Store) : Prop :=
  ∀ store ∈ stores, store.buffer = buffer → store.Inside

section InsideOf
variable {buffer filled : Buffer}

theorem insideOf_nil : InsideOf buffer [] ↔ True := iff_of_true nofun trivial

theorem insideOf_cons (store : Store) (stores : List Store) :
    InsideOf buffer (store :: stores) ↔
      (store.buffer = buffer → store.index < buffer.size) ∧ InsideOf buffer stores := by
  unfold InsideOf
  rw [List.forall_mem_cons]
  refine and_congr_left fun _ => forall_congr' fun hbuffer => ?_
  unfold Store.Inside
  rw [hbuffer]

theorem insideOf_append (stores more : List Store) :
    InsideOf buffer (stores ++ more) ↔ InsideOf buffer stores ∧ InsideOf buffer more :=
  List.forall_mem_append

theorem insideOf_flatMap {α : Type*} (loop : List α) (body : α → List Store) :
    InsideOf buffer (loop.flatMap body) ↔ ∀ a ∈ loop, InsideOf buffer (body a) := by
  unfold InsideOf
  simp only [List.mem_flatMap]
  exact ⟨fun h a ha store hstore => h store ⟨a, ha, hstore⟩,
    fun h store ⟨a, ha, hstore⟩ => h a ha store hstore⟩

theorem mem_fill {values : List Datum} {store : Store} :
    store ∈ fill filled values ↔
      store.buffer = filled ∧ values[store.index]? = some store.value := by
  unfold fill
  rw [List.mem_map]
  constructor
  · rintro ⟨⟨value, n⟩, hmem, rfl⟩
    exact ⟨rfl, List.mem_zipIdx_iff_getElem?.mp hmem⟩
  · rintro ⟨rfl, hvalue⟩
    exact ⟨(store.value, store.index), List.mem_zipIdx_iff_getElem?.mpr hvalue, rfl⟩

/-- The last element decides. -/
theorem insideOf_fill (values : List Datum) :
    InsideOf buffer (fill filled values) ↔ (filled = buffer → values.length ≤ buffer.size) := by
  constructor
  · rintro hinside rfl
    rcases Nat.eq_zero_or_pos values.length with hnone | hsome
    · rw [hnone]
      exact Nat.zero_le _
    · have hlast : values.length - 1 < values.length := by omega
      have hstore := hinside ⟨filled, values.length - 1, values[values.length - 1]⟩
        (mem_fill.mpr ⟨rfl, List.getElem?_eq_getElem hlast⟩) rfl
      unfold Store.Inside at hstore
      dsimp only at hstore
      omega
  · intro hfits store hstore hbuffer
    obtain ⟨hfilled, hvalue⟩ := mem_fill.mp hstore
    obtain ⟨hindex, -⟩ := List.getElem?_eq_some_iff.mp hvalue
    have hlength := hfits (hfilled.symm.trans hbuffer)
    unfold Store.Inside
    rw [hbuffer]
    omega

end InsideOf

/-- The lookup leaves as many cells as the row has. -/
theorem Webvterm.cellsRead_grabRow (s : Webvterm) (crow : ℤ) :
    cellsRead s.screen.cols (s.grabRow crow 256).2 = s.rowCells crow := by
  unfold grabRow rowCells cellsRead
  dsimp only
  by_cases hscreen : 0 ≤ crow
  · rw [if_pos hscreen, if_pos hscreen]
    dsimp only
    omega
  rw [if_neg hscreen, if_neg hscreen]
  by_cases hnone : s.screen.scrollPushes = [] ∨ scrollBufferInitialSize < -crow
  · have hsize : (scrollback s.screen.scrollPushes).size < (-crow).toNat := by
      by_cases hempty : s.screen.scrollPushes = []
      · rw [hempty]
        change 0 < _
        omega
      · rw [(ringInv_scrollback hempty).size]
        have := hnone.resolve_left hempty
        omega
    rw [if_pos hnone, ScrollBuffer.grabRow, if_pos hsize]
    dsimp only
    omega
  · obtain ⟨hpushed, hring⟩ := not_or.mp hnone
    have hinv := ringInv_scrollback hpushed
    have hsize := hinv.size
    have hlast : (-crow).toNat = scrollBufferInitialSize ↔ -crow = scrollBufferInitialSize := by
      omega
    rw [if_neg hnone, ScrollBuffer.grabRow, if_neg (by omega),
      hinv.get hpushed (by omega) (by omega), hsize]
    simp only [hlast]
    omega

section Stores
variable {buffer : Buffer} (s : Webvterm)

theorem insideOf_grabRowStores (trow : ℤ) :
    InsideOf buffer (s.grabRowStores trow) ↔ (buffer = .rowdata →
      0 ≤ trow ∧ trow < s.screen.rows → s.screen.cols ≤ 1024) := by
  have hmem : ∀ store, store ∈ s.grabRowStores trow ↔ ∃ n : ℕ, s.screen.Inside trow n ∧
      ⟨.rowdata, n, .cell (s.screen.getCell trow n)⟩ = store := by
    intro store
    unfold Webvterm.grabRowStores VTermScreen.Inside
    split_ifs with hscreen
    · simp only [List.mem_map, List.mem_filter, List.mem_range]
      exact exists_congr fun n => and_congr_left fun _ =>
        ⟨fun h => of_decide_eq_true h.2, fun h => ⟨by omega, decide_eq_true h⟩⟩
    · exact iff_of_false List.not_mem_nil fun ⟨n, hinside, _⟩ => hscreen hinside.1
  unfold InsideOf
  simp only [hmem]
  constructor
  · rintro hinside rfl ⟨hpos, hrow⟩
    by_contra hwide
    have hlast := hinside _ ⟨1024, ⟨hpos, hrow, by omega, by omega⟩, rfl⟩ rfl
    exact absurd hlast (Nat.lt_irrefl 1024)
  · rintro hfits _ ⟨n, ⟨hpos, hrow, -, hcol⟩, rfl⟩ hbuffer
    have hcols := hfits hbuffer.symm ⟨hpos, hrow⟩
    change n < 1024
    omega

theorem insideOf_cellStores (cell : VTermScreenCell) (n : ℕ) :
    InsideOf buffer (cellStores cell n) ↔ (buffer = .text → n < 255) ∧
      (buffer = .bg ∨ buffer = .fg ∨ buffer = .rev → n < 256) := by
  unfold cellStores
  dsimp only
  split_ifs <;> cases buffer <;> simp [insideOf_cons, insideOf_nil, Buffer.size] <;> omega

/-- webvterm_get_row stores the terminator of the text behind the last cell. -/
theorem insideOf_getRowStores (crow : ℤ) :
    InsideOf buffer (getRowStores s crow) ↔ Transfer.Fits s (.getRow crow) buffer := by
  unfold getRowStores
  dsimp only
  rw [insideOf_append, insideOf_grabRowStores, insideOf_flatMap, s.cellsRead_grabRow]
  simp only [insideOf_cellStores, List.mem_range]
  have hbelow : ∀ bound, (∀ n, n < s.rowCells crow → n < bound) ↔ s.rowCells crow ≤ bound :=
    fun bound => ⟨fun h => Nat.le_of_not_lt fun hlt => Nat.lt_irrefl bound (h bound hlt),
      fun h n hn => Nat.lt_of_lt_of_le hn h⟩
  unfold Transfer.Fits
  cases buffer <;> simp [hbelow]

theorem insideOf_prescrollStores (rect : VTermRect) :
    InsideOf buffer (prescrollStores s.screen rect) ↔ Transfer.Fits s (.prescroll rect) buffer := by
  have hfits : Transfer.Fits s (.prescroll rect) buffer ↔ (.scrolloff = buffer →
      s.screen.AtTop rect ∧ 1 ≤ rect.endRow → s.screen.cols ≤ 1000) := by
    cases buffer <;> simp [Transfer.Fits]
  rw [hfits]
  unfold prescrollStores
  by_cases htop : s.screen.AtTop rect
  · obtain ⟨hrow, hcol, hend⟩ := htop
    rw [if_neg (by omega), insideOf_flatMap]
    simp only [insideOf_fill, List.length_map, List.length_range, List.mem_range]
    constructor
    · rintro hinside rfl ⟨-, hrows⟩
      have hfirst : s.screen.cols.toNat ≤ 1000 := hinside 0 (by omega) rfl
      omega
    · rintro hcols row hlt rfl
      have hwidth := hcols rfl ⟨⟨hrow, hcol, hend⟩, by omega⟩
      change s.screen.cols.toNat ≤ 1000
      omega
  · have hother : rect.startRow ≠ 0 ∨ rect.startCol ≠ 0 ∨ rect.endCol ≠ s.screen.cols := by
      unfold VTermScreen.AtTop at htop
      omega
    rw [if_pos hother, insideOf_nil]
    exact iff_of_true trivial fun _ hscrolled => absurd hscrolled.1 htop

/-- What screen_prescroll stores, row by row, is what it pushes to the scrollback. -/
theorem values_prescrollStores (s : VTermScreen) (rect : VTermRect) :
    (prescrollStores s rect).map Store.value = (s.pushedFor rect).flatten.map .cell := by
  have hvalues : ∀ values, (fill .scrolloff values).map Store.value = values := by
    intro values
    unfold fill
    rw [List.map_map]
    exact List.zipIdx_map_fst 0 values
  unfold prescrollStores VTermScreen.pushedFor
  by_cases htop : s.AtTop rect
  · obtain ⟨hrow, hcol, hend⟩ := htop
    rw [if_neg (by omega), if_pos ⟨hrow, hcol, hend⟩]
    unfold VTermScreen.firstRows
    rw [List.map_flatMap, List.map_flatten, List.map_map, ← List.flatMap_def]
    congr 1
    funext row
    rw [hvalues, Function.comp_apply, List.map_map]
    rfl
  · have hother : rect.startRow ≠ 0 ∨ rect.startCol ≠ 0 ∨ rect.endCol ≠ s.cols := by
      unfold VTermScreen.AtTop at htop
      omega
    rw [if_pos hother, if_neg htop]
    rfl

theorem insideOf_recvStores (len : ℤ) (data : ℕ → UInt8) :
    InsideOf buffer (recvStores len data) ↔ Transfer.Fits s (.recv len data) buffer := by
  unfold recvStores
  rw [List.cons_append, insideOf_cons, insideOf_append, insideOf_fill, List.length_map,
    List.length_range]
  unfold Transfer.Fits
  split_ifs <;> cases buffer <;> simp [insideOf_cons, insideOf_nil, Buffer.size] <;> omega

theorem insideOf_sshSendStores (data : JsString) :
    InsideOf buffer (sshSendStores data) ↔ Transfer.Fits s (.sshSend data) buffer := by
  unfold sshSendStores writeAsciiToMemory
  rw [insideOf_append, insideOf_fill, insideOf_cons, List.length_append, List.length_map]
  unfold Transfer.Fits
  cases buffer <;> simp [insideOf_nil, Buffer.size]
  omega

theorem length_cString (str : JsString) : (cString str).length ≤ str.length := by
  unfold cString
  exact Nat.le_trans (List.takeWhile_prefix _).length_le (Nat.le_of_eq (List.length_map _))

theorem insideOf_setuserpassStores (username password : JsString) :
    InsideOf buffer (setuserpassStores username password) ↔
      Transfer.Fits s (.setuserpass username password) buffer := by
  have husername := length_cString username
  have hpassword := length_cString password
  unfold setuserpassStores writeAsciiToMemory strcpy
  simp only [insideOf_append, insideOf_fill, List.length_append, List.length_map,
    List.length_replicate, List.length_singleton]
  unfold Transfer.Fits
  cases buffer <;> simp [Buffer.size] <;> omega

end Stores

theorem insideOf_stores (s : Webvterm) (transfer : Transfer) (buffer : Buffer) :
    InsideOf buffer (transfer.stores s) ↔ transfer.Fits s buffer := by
  cases transfer with
  | getRow crow => exact insideOf_getRowStores s crow
  | prescroll rect => exact insideOf_prescrollStores s rect
  | recv len data => exact insideOf_recvStores s len data
  | sshSend data => exact insideOf_sshSendStores s data
  | setuserpass username password => exact insideOf_setuserpassStores s username password

/-- A transfer stays inside the buffers exactly when it is no longer than each of them allows. -/
theorem stores_inside_iff (s : Webvterm) (transfer : Transfer) :
    (∀ store ∈ transfer.stores s, store.Inside) ↔ ∀ buffer, transfer.Fits s buffer := by
  simp only [← insideOf_stores]
  exact ⟨fun h _ store hstore _ => h store hstore, fun h store hstore => h _ store hstore rfl⟩

/-- In a window of 256 columns the terminator of a row falls behind the text buffer. -/
theorem not_inside_wideRow :
    ¬ ∀ (s : Webvterm) (transfer : Transfer), 1 ≤ s.screen.cols →
      ∀ store ∈ transfer.stores s, store.Inside := by
  intro hall
  have hinside : InsideOf .text (getRowStores
      ⟨(webvtermInit 256 2 (fun _ => .blank .zero) []).display.screen,
        fun _ => ⟨[], false, ⟨0, 0, 0⟩, ⟨0, 0, 0⟩⟩, fun _ => ⟨[], false, ⟨0, 0, 0⟩, ⟨0, 0, 0⟩⟩⟩ 0) :=
    fun store hstore _ => hall _ (.getRow 0) (by decide) store hstore
  have hcells : 256 ≤ 255 := (insideOf_getRowStores _ 0).mp hinside
  exact absurd hcells (by decide)

end Jterm.Page
