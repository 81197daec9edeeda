import Jterm.Page.Textmatrix
import Mathlib.Data.Nat.Digits.Defs

/-!
Reading a rendered line back. The reader knows two elements, p with its two colours and u,
and three entities; the lines of textmatrix_getline are read back as their cells unless the
cursor stands where a run of equal attributes begins.
-/
namespace Jterm.Page

/-- A piece of HTML: what stands between `<` and `>`, or a character. -/
inductive Token
  | tag (content : JsString)
  | char (c : UInt16)
  deriving DecidableEq, Repr

inductive LexState
  | text
  | tag (content : JsString)
  | entity (name : JsString)

def entityChar (name : JsString) : Option UInt16 :=
  if name = js "amp" then some 0x26
  else if name = js "lt" then some 0x3c
  else if name = js "gt" then some 0x3e
  else none

/-- Markup that is not finished, a bare `>` and any other entity are no HTML here. -/
def lex : LexState → JsString → Option (List Token)
  | .text, [] => some []
  | .text, c :: s =>
    if c = 0x3c then lex (.tag []) s
    else if c = 0x26 then lex (.entity []) s
    else if c = 0x3e then none
    else (lex .text s).map (.char c :: ·)
  | .tag _, [] => none
  | .tag content, c :: s =>
    if c = 0x3e then (lex .text s).map (.tag content :: ·) else lex (.tag (content ++ [c])) s
  | .entity _, [] => none
  | .entity name, c :: s =>
    if c = 0x3b then
      (entityChar name).bind fun d => (lex .text s).map (.char d :: ·)
    else lex (.entity (name ++ [c])) s

/-- `fg` and `bg` are the colour and the background-colour of the style. -/
inductive Element
  | p (fg bg : ℕ)
  | u
  deriving DecidableEq, Repr

def Element.name : Element → JsString
  | .p _ _ => js "p"
  | .u => js "u"

def hexDigit (c : UInt16) : Option ℕ :=
  if 0x30 ≤ c ∧ c ≤ 0x39 then some (c.toNat - 0x30)
  else if 0x61 ≤ c ∧ c ≤ 0x66 then some (c.toNat - 0x61 + 10)
  else none

def readHex : ℕ → JsString → Option ℕ
  | n, [] => some n
  | n, c :: s => (hexDigit c).bind fun d => readHex (16 * n + d) s

def stripStart (start s : JsString) : Option JsString :=
  if start.isPrefixOf s then some (s.drop start.length) else none

def styleStart : JsString := js "p style=\"margin:0; padding:0; color: #"
def styleMiddle : JsString := js "; background-color: #"
def styleEnd : JsString := js "; display: inline-block\""

def readElement (content : JsString) : Option Element :=
  if content = js "u" then some .u
  else do
    let s ← stripStart styleStart content
    let fg ← readHex 0 (s.take 6)
    let s ← stripStart styleMiddle (s.drop 6)
    let bg ← readHex 0 (s.take 6)
    if s.drop 6 = styleEnd then some (.p fg bg) else none

/-- A character on the screen, with the colours of the p element it is in. -/
structure Shown where
  char : UInt16
  colours : Option (ℕ × ℕ)
  underlined : Bool
  deriving DecidableEq, Repr

/-- The colours of the innermost open p. -/
def coloursIn : List Element → Option (ℕ × ℕ)
  | [] => none
  | .p fg bg :: _ => some (fg, bg)
  | .u :: stack => coloursIn stack

/-- The open elements behind a tag; a close tag ends the innermost one. -/
def readTag (stack : List Element) (content : JsString) : Option (List Element) :=
  if content.head? = some 0x2f then
    match stack with
    | [] => none
    | element :: rest => if content.tail = element.name then some rest else none
  else (readElement content).map (· :: stack)

/-- Read tokens with the elements of `stack` open; at the end all are closed. -/
def readTokens : List Element → List Token → Option (List Shown)
  | stack, [] => if stack = [] then some [] else none
  | stack, .char c :: tokens =>
    (readTokens stack tokens).map (⟨c, coloursIn stack, stack.contains .u⟩ :: ·)
  | stack, .tag content :: tokens =>
    (readTag stack content).bind fun stack => readTokens stack tokens

def readLine (html : JsString) : Option (List Shown) := (lex .text html).bind (readTokens [])

/-- A part of a line that reads as these tokens, whatever follows it. -/
def Lexes (html : JsString) (tokens : List Token) : Prop :=
  ∀ s, lex .text (html ++ s) = (lex .text s).map (tokens ++ ·)

theorem lexes_nil : Lexes [] [] := by
  intro s
  simp

theorem Lexes.append {a b : JsString} {ts us : List Token} (ha : Lexes a ts) (hb : Lexes b us) :
    Lexes (a ++ b) (ts ++ us) := by
  intro s
  rw [List.append_assoc, ha, hb, Option.map_map]
  congr 1
  funext tokens
  simp

theorem lex_tag (content acc s : JsString) (h : 0x3e ∉ content) :
    lex (.tag acc) (content ++ 0x3e :: s) = (lex .text s).map (.tag (acc ++ content) :: ·) := by
  induction content generalizing acc with
  | nil => simp [lex]
  | cons c content ih =>
    obtain ⟨hc, hrest⟩ := not_or.mp (mt List.mem_cons.mpr h)
    rw [List.cons_append, lex, if_neg (Ne.symm hc), ih _ hrest, List.append_assoc,
      List.singleton_append]

theorem lexes_tag {content : JsString} (h : 0x3e ∉ content) :
    Lexes (0x3c :: content ++ [0x3e]) [.tag content] := by
  intro s
  rw [List.cons_append, List.cons_append, List.append_assoc, List.singleton_append, lex,
    if_pos rfl, lex_tag content [] s h, List.nil_append]
  rfl

theorem lexes_charToHtml (c : UInt16) : Lexes (charToHtml c) [.char c] := by
  intro s
  unfold charToHtml
  split
  · rename_i hamp
    rw [hamp]
    rfl
  · rename_i hamp
    split
    · rename_i hlt
      rw [hlt]
      rfl
    · rename_i hlt
      split
      · rename_i hgt
        rw [hgt]
        rfl
      · rename_i hgt
        rw [List.singleton_append, lex, if_neg hlt, if_neg hamp, if_neg hgt]
        rfl

/-! Colours: `toString(16)` with its padding is read back. -/

theorem readHex_append (n : ℕ) (a b : JsString) :
    readHex n (a ++ b) = (readHex n a).bind fun m => readHex m b := by
  induction a generalizing n with
  | nil => rfl
  | cons c a ih =>
    rw [List.cons_append, readHex, readHex, Option.bind_assoc]
    congr 1
    funext d
    exact ih (16 * n + d)

theorem readHex_zeros (k : ℕ) : readHex 0 (List.replicate k 0x30) = some 0 := by
  induction k with
  | zero => rfl
  | succ k ih =>
    rw [List.replicate_succ, readHex]
    exact ih

theorem hexDigit_digitChar {d : ℕ} (h : d < 16) :
    hexDigit (Nat.digitChar d).toNat.toUInt16 = some d := by
  have hall : ∀ d : Fin 16, hexDigit (Nat.digitChar d).toNat.toUInt16 = some (d : ℕ) := by decide
  exact hall ⟨d, h⟩

theorem readHex_toDigits (n : ℕ) :
    readHex 0 ((Nat.toDigits 16 n).map fun c => c.toNat.toUInt16) = some n := by
  induction n using Nat.strong_induction_on with
  | h n ih =>
    rw [Nat.toDigits_eq_if (by decide)]
    split
    · rename_i hsmall
      simp only [List.map_cons, List.map_nil, readHex, hexDigit_digitChar hsmall, Option.bind_some,
        Nat.mul_zero, Nat.zero_add]
    · rename_i hbig
      rw [List.map_append, readHex_append, ih (n / 16) (by omega), Option.bind_some]
      simp only [List.map_cons, List.map_nil, readHex,
        hexDigit_digitChar (Nat.mod_lt n (by decide : 0 < 16)), Option.bind_some]
      congr 1
      omega

theorem readHex_hexColour (n : ℕ) : readHex 0 (hexColour n) = some n := by
  unfold hexColour
  rw [readHex_append, readHex_zeros, Option.bind_some, readHex_toDigits]

theorem length_hexColour {n : ℕ} (h : n < 2 ^ 24) : (hexColour n).length = 6 := by
  have hdigits : (Nat.toDigits 16 n).length ≤ 6 :=
    Nat.toDigits_length 16 n 6 (by decide) (by omega)
  unfold hexColour
  rw [List.length_append, List.length_replicate, List.length_map]
  omega

theorem hexDigit_of_mem {s : JsString} {n m : ℕ} (h : readHex n s = some m) {c : UInt16}
    (hc : c ∈ s) : (hexDigit c).isSome := by
  induction s generalizing n with
  | nil => exact absurd hc List.not_mem_nil
  | cons d s ih =>
    obtain ⟨digit, hdigit, hrest⟩ := Option.bind_eq_some_iff.mp h
    rcases List.mem_cons.mp hc with rfl | hmem
    · rw [hdigit]
      rfl
    · exact ih hrest hmem

theorem hexColour_no_close (n : ℕ) : (0x3e : UInt16) ∉ hexColour n := fun hmem =>
  absurd (hexDigit_of_mem (readHex_hexColour n) hmem) (by decide)

/-! The tags of a line. -/

/-- The colours a cell is drawn in. -/
def Cell.drawn (cell : Cell) : ℕ × ℕ :=
  if cell.reverse = some 1 then (cell.bg, cell.fg) else (cell.fg, cell.bg)

def Cell.element (cell : Cell) : Element := .p cell.drawn.1 cell.drawn.2

def styleOf (cell : Cell) : JsString :=
  styleStart ++ hexColour cell.drawn.1 ++ styleMiddle ++ hexColour cell.drawn.2 ++ styleEnd

theorem openTag_eq (cell : Cell) : openTag cell = 0x3c :: styleOf cell ++ [0x3e] := by
  have hstart : js "<p style=\"margin:0; padding:0; color: #" = 0x3c :: styleStart := by decide
  have hend : js "; display: inline-block\">" = styleEnd ++ [0x3e] := by decide
  unfold openTag styleOf Cell.drawn styleMiddle
  rw [hstart, hend]
  simp only [List.append_assoc, List.cons_append]

theorem stripStart_append (start s : JsString) : stripStart start (start ++ s) = some s := by
  unfold stripStart
  rw [if_pos (by simp), List.drop_left]

theorem readElement_styleOf {cell : Cell} (h : cell.fg < 2 ^ 24 ∧ cell.bg < 2 ^ 24) :
    readElement (styleOf cell) = some cell.element := by
  have hdrawn : cell.drawn.1 < 2 ^ 24 ∧ cell.drawn.2 < 2 ^ 24 := by
    unfold Cell.drawn
    split
    · exact h.symm
    · exact h
  have hfg := length_hexColour hdrawn.1
  have hbg := length_hexColour hdrawn.2
  have hne : styleOf cell ≠ js "u" := by
    intro heq
    have hlen := congrArg List.length heq
    have hstart : styleStart.length = 38 := by decide
    have hu : (js "u").length = 1 := by decide
    simp only [styleOf, List.length_append, hstart, hu] at hlen
    omega
  unfold readElement
  rw [if_neg hne]
  simp only [styleOf, List.append_assoc, stripStart_append, Option.bind_eq_bind, Option.bind_some,
    List.take_left' hfg, List.drop_left' hfg, readHex_hexColour, List.take_left' hbg,
    List.drop_left' hbg, if_true, Cell.element]

theorem lexes_openTag (cell : Cell) : Lexes (openTag cell) [.tag (styleOf cell)] := by
  rw [openTag_eq]
  apply lexes_tag
  have hstart : (0x3e : UInt16) ∉ styleStart := by decide
  have hmiddle : (0x3e : UInt16) ∉ styleMiddle := by decide
  have hend : (0x3e : UInt16) ∉ styleEnd := by decide
  simp [styleOf, hstart, hmiddle, hend, hexColour_no_close]

theorem lexes_closeTag : Lexes (js "</p>") [.tag (js "/p")] :=
  lexes_tag (show 0x3e ∉ js "/p" by decide)

/-- The marks around the cursor's character. -/
def marked (atCursor : Bool) (tokens : List Token) : List Token :=
  if atCursor then .tag (js "u") :: tokens ++ [.tag (js "/u")] else tokens

theorem lexes_marked {html : JsString} {tokens : List Token} (atCursor : Bool)
    (h : Lexes html tokens) :
    Lexes ((if atCursor then js "<u>" else []) ++ html ++ if atCursor then js "</u>" else [])
      (marked atCursor tokens) := by
  cases atCursor with
  | true =>
    have hopen : Lexes (js "<u>") [.tag (js "u")] := lexes_tag (show 0x3e ∉ js "u" by decide)
    have hclose : Lexes (js "</u>") [.tag (js "/u")] := lexes_tag (show 0x3e ∉ js "/u" by decide)
    exact (hopen.append h).append hclose
  | false => simpa [marked] using h

/-- The attributes that begin a new run. -/
def SameRun (previous cell : Cell) : Prop :=
  previous.bg = cell.bg ∧ previous.fg = cell.fg ∧ previous.reverse = cell.reverse

instance (previous cell : Cell) : Decidable (SameRun previous cell) :=
  inferInstanceAs (Decidable (_ ∧ _))

def cellTokens (atCursor : Bool) (previous cell : Cell) : List Token :=
  marked atCursor
    (if SameRun previous cell then [.char cell.char]
      else [.tag (js "/p"), .tag (styleOf cell), .char cell.char])

theorem lexes_cellHtml (atCursor : Bool) (previous cell : Cell) :
    Lexes (cellHtml atCursor previous cell) (cellTokens atCursor previous cell) := by
  apply lexes_marked
  by_cases hsame : SameRun previous cell
  · have hno : ¬ (previous.bg ≠ cell.bg ∨ previous.fg ≠ cell.fg ∨
        previous.reverse ≠ cell.reverse) := by
      obtain ⟨hbg, hfg, hreverse⟩ := hsame
      simp [hbg, hfg, hreverse]
    rw [if_pos hsame, if_neg hno]
    exact lexes_charToHtml cell.char
  · have hyes : previous.bg ≠ cell.bg ∨ previous.fg ≠ cell.fg ∨
        previous.reverse ≠ cell.reverse := by
      unfold SameRun at hsame
      tauto
    rw [if_neg hsame, if_pos hyes]
    exact (lexes_closeTag.append (lexes_openTag cell)).append (lexes_charToHtml cell.char)

def loopTokens (cursorHere : Bool) (cursorX : ℤ) (cx : ℕ) (previous : Cell) : List Cell → List Token
  | [] => []
  | cell :: rest =>
    cellTokens (cursorHere && decide ((cx : ℤ) = cursorX)) previous cell ++
      loopTokens cursorHere cursorX (cx + 1) cell rest

theorem lexes_getlineLoop (cursorHere : Bool) (cursorX : ℤ) (cx : ℕ) (previous : Cell)
    (cells : List Cell) :
    Lexes (getlineLoop cursorHere cursorX cx previous cells)
      (loopTokens cursorHere cursorX cx previous cells) := by
  induction cells generalizing cx previous with
  | nil => exact lexes_nil
  | cons cell rest ih => exact (lexes_cellHtml _ previous cell).append (ih (cx + 1) cell)

/-! Reading the tags. -/

theorem readTag_closeP (fg bg : ℕ) (stack : List Element) :
    readTag (.p fg bg :: stack) (js "/p") = some stack := if_pos (by decide)

theorem readTag_openP {cell : Cell} (h : cell.fg < 2 ^ 24 ∧ cell.bg < 2 ^ 24)
    (stack : List Element) : readTag stack (styleOf cell) = some (cell.element :: stack) := by
  have hstart : styleStart.head? = some 0x70 := by decide
  have hhead : (styleOf cell).head? = some 0x70 := by
    unfold styleOf
    simp [List.head?_append, hstart]
  unfold readTag
  rw [if_neg (by rw [hhead]; decide), readElement_styleOf h]
  rfl

theorem readTag_mark (stack : List Element) : readTag stack (js "u") = some (.u :: stack) := by
  have hread : readElement (js "u") = some .u := by decide
  unfold readTag
  rw [if_neg (by decide), hread]
  rfl

theorem readTag_unmark (stack : List Element) : readTag (.u :: stack) (js "/u") = some stack :=
  if_pos (by decide)

/-- A p cannot be closed while the u in it is open. -/
theorem readTag_misnested (stack : List Element) : readTag (.u :: stack) (js "/p") = none :=
  if_pos (by decide)

/-! Reading a line. -/

/-- What a cell at column `cx` shows. -/
def shownCell (atCursor : Bool) (cell : Cell) : Shown := ⟨cell.char, some cell.drawn, atCursor⟩

/-- A cell behind its left neighbour, where the cursor is on no cell that begins a run. -/
theorem readTokens_cell {previous cell : Cell} (h : cell.fg < 2 ^ 24 ∧ cell.bg < 2 ^ 24)
    {atCursor : Bool} (hok : atCursor = true → SameRun previous cell) (tokens : List Token) :
    readTokens [previous.element] (cellTokens atCursor previous cell ++ tokens) =
      (readTokens [cell.element] tokens).map (shownCell atCursor cell :: ·) := by
  unfold cellTokens marked
  by_cases hsame : SameRun previous cell
  · have helement : previous.element = cell.element := by
      obtain ⟨hbg, hfg, hreverse⟩ := hsame
      unfold Cell.element Cell.drawn
      rw [hbg, hfg, hreverse]
    rw [if_pos hsame, helement]
    cases atCursor with
    | false => rfl
    | true =>
      simp only [if_true, List.cons_append, List.nil_append, readTokens, readTag_mark,
        readTag_unmark, Option.bind_some]
      rfl
  · rw [if_neg hsame]
    cases atCursor with
    | false =>
      simp only [Bool.false_eq_true, if_false, List.cons_append, List.nil_append, readTokens,
        readTag_openP h, Option.bind_some]
      rw [show previous.element = .p previous.drawn.1 previous.drawn.2 from rfl, readTag_closeP]
      rfl
    | true => exact absurd (hok rfl) hsame

theorem readTokens_cell_misnested {previous cell : Cell} (hsame : ¬ SameRun previous cell)
    (stack : List Element) (tokens : List Token) :
    readTokens stack (cellTokens true previous cell ++ tokens) = none := by
  unfold cellTokens marked
  rw [if_neg hsame]
  simp only [if_true, List.cons_append, List.nil_append, readTokens, readTag_mark,
    readTag_misnested, Option.bind_some, Option.bind_none]

/-- No cell from column `cx` on that begins a run is at the cursor. -/
def NoRunAtCursor (cursorHere : Bool) (cursorX : ℤ) : ℕ → Cell → List Cell → Prop
  | _, _, [] => True
  | cx, previous, cell :: rest =>
    ((cursorHere && decide ((cx : ℤ) = cursorX)) = true → SameRun previous cell) ∧
      NoRunAtCursor cursorHere cursorX (cx + 1) cell rest

/-- What the cells from column `cx` on show. -/
def shownFrom (cursorHere : Bool) (cursorX : ℤ) : ℕ → List Cell → List Shown
  | _, [] => []
  | cx, cell :: rest =>
    shownCell (cursorHere && decide ((cx : ℤ) = cursorX)) cell ::
      shownFrom cursorHere cursorX (cx + 1) rest

/-- The loop of textmatrix_getline, up to the `</p>` that ends the line. -/
theorem readTokens_loop (cursorHere : Bool) (cursorX : ℤ) (cx : ℕ) (previous : Cell)
    {cells : List Cell} (hcolours : ∀ cell ∈ cells, cell.fg < 2 ^ 24 ∧ cell.bg < 2 ^ 24) :
    (NoRunAtCursor cursorHere cursorX cx previous cells →
      readTokens [previous.element]
        (loopTokens cursorHere cursorX cx previous cells ++ [.tag (js "/p")]) =
          some (shownFrom cursorHere cursorX cx cells)) ∧
    (¬ NoRunAtCursor cursorHere cursorX cx previous cells →
      readTokens [previous.element]
        (loopTokens cursorHere cursorX cx previous cells ++ [.tag (js "/p")]) = none) := by
  induction cells generalizing cx previous with
  | nil =>
    refine ⟨fun _ => ?_, fun hnot => absurd trivial hnot⟩
    have hclose : readTag [previous.element] (js "/p") = some [] := readTag_closeP _ _ _
    simp only [loopTokens, List.nil_append, readTokens, hclose, Option.bind_some, if_true, shownFrom]
  | cons cell rest ih =>
    obtain ⟨hread, hnone⟩ := ih (cx + 1) cell
      fun c hc => hcolours c (List.mem_cons_of_mem cell hc)
    have hcell := hcolours cell List.mem_cons_self
    rw [loopTokens, List.append_assoc]
    by_cases hok : (cursorHere && decide ((cx : ℤ) = cursorX)) = true → SameRun previous cell
    · rw [readTokens_cell hcell hok]
      refine ⟨fun hrun => ?_, fun hnot => ?_⟩
      · rw [hread hrun.2]
        rfl
      · rw [hnone fun hrun => hnot ⟨hok, hrun⟩]
        rfl
    · refine ⟨fun hrun => absurd hrun.1 hok, fun _ => ?_⟩
      obtain ⟨hcursor, hsame⟩ := Classical.not_imp.mp hok
      rw [hcursor]
      exact readTokens_cell_misnested hsame _ _

theorem shownFrom_eq (cursorHere : Bool) (cursorX : ℤ) (cx : ℕ) (cells : List Cell) :
    shownFrom cursorHere cursorX cx cells = cells.mapIdx fun i cell =>
      shownCell (cursorHere && decide (((cx + i : ℕ) : ℤ) = cursorX)) cell := by
  induction cells generalizing cx with
  | nil => rfl
  | cons cell rest ih =>
    rw [shownFrom, ih, List.mapIdx_cons]
    simp only [Nat.add_zero, Nat.add_comm, Nat.add_left_comm]

theorem noRunAtCursor_iff (cursorHere : Bool) (cursorX : ℤ) (cx : ℕ) (previous : Cell)
    (cells : List Cell) :
    NoRunAtCursor cursorHere cursorX cx previous cells ↔
      ∀ (i : ℕ) (a b : Cell), (previous :: cells)[i]? = some a → cells[i]? = some b →
        cursorHere = true → ((cx + i : ℕ) : ℤ) = cursorX → SameRun a b := by
  induction cells generalizing cx previous with
  | nil => simp [NoRunAtCursor]
  | cons cell rest ih =>
    rw [NoRunAtCursor, ih]
    constructor
    · rintro ⟨hfirst, hrest⟩ i a b ha hb hhere hx
      cases i with
      | zero =>
        cases ha
        cases hb
        exact hfirst (by simpa [hhere] using hx)
      | succ i => exact hrest i a b ha hb hhere (by rw [← hx]; congr 1; omega)
    · intro h
      refine ⟨fun hcursor => ?_, fun i a b ha hb hhere hx => ?_⟩
      · rw [Bool.and_eq_true, decide_eq_true_eq] at hcursor
        exact h 0 previous cell rfl rfl hcursor.1 hcursor.2
      · exact h (i + 1) a b ha hb hhere (by rw [← hx]; congr 1; omega)

/-- The tokens of a line with the given first cell, which is marked inside its own p. -/
def lineTokens (cursorHere : Bool) (cursorX : ℤ) (first : Cell) (rest : List Cell) : List Token :=
  .tag (styleOf first) ::
    (marked (cursorHere && decide (0 = cursorX)) [.char first.char] ++
      (loopTokens cursorHere cursorX 1 first rest ++ [.tag (js "/p")]))

theorem textmatrixGetline_reads {m : Textmatrix} {y : ℤ} {first : Cell} {rest : List Cell}
    (hrow : m.row y = some (first :: rest)) :
    ∃ html, textmatrixGetline m y = some html ∧
      readLine html = readTokens [] (lineTokens (decide (y = m.cursorY)) m.cursorX first rest) := by
  have hline := (lexes_openTag first).append ((lexes_marked
    (decide (y = m.cursorY) && decide (0 = m.cursorX)) (lexes_charToHtml first.char)).append
      ((lexes_getlineLoop (decide (y = m.cursorY)) m.cursorX 1 first rest).append lexes_closeTag))
  have hget := congrArg (Option.bind · fun row : List Cell => row.head?.bind fun first =>
    some (openTag first ++ (if decide (y = m.cursorY) && decide (0 = m.cursorX) then js "<u>" else [])
      ++ charToHtml first.char ++
      (if decide (y = m.cursorY) && decide (0 = m.cursorX) then js "</u>" else []) ++
      getlineLoop (decide (y = m.cursorY)) m.cursorX 1 first row.tail ++ js "</p>")) hrow
  refine ⟨_, hget, ?_⟩
  have hall := hline []
  simp only [List.append_nil, List.append_assoc] at hall
  unfold readLine
  simp only [List.append_assoc, List.tail_cons, hall]
  simp [lex, lineTokens]

theorem readTokens_line (cursorHere : Bool) (cursorX : ℤ) {first : Cell} {rest : List Cell}
    (hcolours : ∀ cell ∈ first :: rest, cell.fg < 2 ^ 24 ∧ cell.bg < 2 ^ 24) :
    readTokens [] (lineTokens cursorHere cursorX first rest) =
      (readTokens [first.element]
        (loopTokens cursorHere cursorX 1 first rest ++ [.tag (js "/p")])).map
          (shownCell (cursorHere && decide (0 = cursorX)) first :: ·) := by
  have hsame : SameRun first first := ⟨rfl, rfl, rfl⟩
  have hcell := readTokens_cell (hcolours first List.mem_cons_self)
    (fun _ : (cursorHere && decide (0 = cursorX)) = true => hsame)
    (loopTokens cursorHere cursorX 1 first rest ++ [.tag (js "/p")])
  unfold cellTokens at hcell
  rw [if_pos hsame] at hcell
  unfold lineTokens
  rw [readTokens, readTag_openP (hcolours first List.mem_cons_self), Option.bind_some, hcell]

/-- The line is nested and closed HTML, its text is the row's text, each character has its own
cell's colours, and the one at the cursor is underlined. -/
def SaysCells (m : Textmatrix) (y : ℤ) (row : List Cell) : Prop :=
  ∃ html shown, textmatrixGetline m y = some html ∧ readLine html = some shown ∧
    textmatrixGetlineTxt m y = some (shown.map Shown.char) ∧
    shown = row.mapIdx fun cx cell =>
      ⟨cell.char, some cell.drawn, decide (y = m.cursorY ∧ (cx : ℤ) = m.cursorX)⟩

/-- A line says what the cells say unless the cursor is on a cell, not the first, at which a new
run of attributes begins. -/
theorem saysCells_iff {m : Textmatrix} {y : ℤ} {row : List Cell} (hrow : m.row y = some row)
    (hne : row ≠ []) (hcolours : ∀ cell ∈ row, cell.fg < 2 ^ 24 ∧ cell.bg < 2 ^ 24) :
    SaysCells m y row ↔ ∀ (cx : ℕ) (a b : Cell), row[cx]? = some a → row[cx + 1]? = some b →
      y = m.cursorY → ((cx + 1 : ℕ) : ℤ) = m.cursorX → SameRun a b := by
  obtain ⟨first, rest, rfl⟩ := List.exists_cons_of_ne_nil hne
  obtain ⟨hread, hnone⟩ := readTokens_loop (decide (y = m.cursorY)) m.cursorX 1 first
    fun c hc => hcolours c (List.mem_cons_of_mem first hc)
  obtain ⟨html, hhtml, hreads⟩ := textmatrixGetline_reads hrow
  rw [readTokens_line _ _ hcolours] at hreads
  have hrun : (∀ (cx : ℕ) (a b : Cell), (first :: rest)[cx]? = some a →
      (first :: rest)[cx + 1]? = some b → y = m.cursorY → ((cx + 1 : ℕ) : ℤ) = m.cursorX →
        SameRun a b) ↔ NoRunAtCursor (decide (y = m.cursorY)) m.cursorX 1 first rest := by
    rw [noRunAtCursor_iff]
    simp only [List.getElem?_cons_succ, decide_eq_true_eq, Nat.add_comm 1]
  rw [hrun]
  constructor
  · rintro ⟨html', shown, hhtml', hshown, -, -⟩
    by_contra hnot
    rw [← Option.some.inj (hhtml.symm.trans hhtml'), hreads, hnone hnot] at hshown
    cases hshown
  · intro hok
    rw [hread hok] at hreads
    have hshown : shownCell (decide (y = m.cursorY) && decide (0 = m.cursorX)) first ::
        shownFrom (decide (y = m.cursorY)) m.cursorX 1 rest =
          (first :: rest).mapIdx fun cx cell =>
            ⟨cell.char, some cell.drawn, decide (y = m.cursorY ∧ (cx : ℤ) = m.cursorX)⟩ := by
      rw [shownFrom_eq, List.mapIdx_cons]
      simp [shownCell, Bool.decide_and, Nat.add_comm]
    rw [Option.map_some, hshown] at hreads
    refine ⟨html, _, hhtml, hreads, ?_, rfl⟩
    unfold textmatrixGetlineTxt
    rw [hrow, Option.map_some]
    congr 1
    apply List.ext_getElem?
    intro i
    rw [List.getElem?_map, List.getElem?_map, List.getElem?_mapIdx, Option.map_map]
    rfl

/-- White on black and black on white, the cursor on neither: the row has two runs. -/
def twoRuns (cursorX : ℤ) : Textmatrix :=
  ⟨[[⟨0x3c, 0xffffff, 0, some 0⟩, ⟨0x26, 0xffffff, 0, some 1⟩]], cursorX, 0, 1, 2, [[]]⟩

theorem saysCells_iff_first : SaysCells (twoRuns 0) 0
    [⟨0x3c, 0xffffff, 0, some 0⟩, ⟨0x26, 0xffffff, 0, some 1⟩] := by
  refine (saysCells_iff (by decide) (by decide) (by decide)).mpr ?_
  intro cx a b _ _ _ hx
  exact absurd hx (by change ((cx + 1 : ℕ) : ℤ) ≠ 0; omega)

/-- With the cursor on the second run the u is opened in one p and closed in the next. -/
theorem not_saysCells_second : ¬ SaysCells (twoRuns 1) 0
    [⟨0x3c, 0xffffff, 0, some 0⟩, ⟨0x26, 0xffffff, 0, some 1⟩] := by
  have hnone : (textmatrixGetline (twoRuns 1) 0).bind readLine = none := by decide +kernel
  rintro ⟨html, shown, hhtml, hshown, -⟩
  rw [hhtml, Option.bind_some, hshown] at hnone
  cases hnone

end Jterm.Page
