import Jterm.Vterm.Chunks
import Jterm.Vterm.CsiDecode

/-!
A control sequence on its way from the server. Its bytes come in reads of any size, what is
there of it between two reads is saved behind whatever an earlier string has left in
`strbuffer`. Where nothing is left and nothing is cut off, do_string_csi gets the bytes of
the sequence; what it decodes is the sequence, and setpen keeps to the arguments.
-/
namespace Jterm.Vterm

namespace ControlSequence

/-- What follows ESC [. -/
def body (seq : ControlSequence) : List UInt8 := seq.text ++ [seq.final]

def bytes (seq : ControlSequence) : List UInt8 := 0x1b :: 0x5b :: seq.body

theorem body_ne_nil (seq : ControlSequence) : seq.body ≠ [] :=
  List.append_ne_nil_of_right_ne_nil _ (List.cons_ne_nil _ _)

end ControlSequence

/-- The callbacks of the parser over several calls. -/
def recvsCalls (t : VTerm) : List (List UInt8) → List ParserCall
  | [] => []
  | bytes :: chunks => recvCalls t bytes ++ recvsCalls (webvtermRecv t bytes) chunks

/-- `strbuffer` behind the ESC of a sequence. Inside an OSC or DCS string, an ESC that ends its
read is saved with the string. -/
def Parser.behindEsc (p : Parser) (chunks : List (List UInt8)) : List UInt8 :=
  if (p.state = .osc ∨ p.state = .dcs) ∧ chunks.find? (· ≠ []) = some [0x1b] then
    gathered p.strbuffer [0x1b]
  else p.strbuffer

/-- Between two reads: what is still to come of a sequence, and the parser. -/
inductive Receiving (saved body : List UInt8) : List UInt8 → Parser → Prop
  | escape {state : ParserState} : state = .esc ∨ state = .escInOsc ∨ state = .escInDcs →
      Receiving saved body (0x5b :: body) ⟨state, saved⟩
  | inside {got rest : List UInt8} : body = got ++ rest → rest ≠ [] →
      Receiving saved body rest ⟨.csi, gathered saved got⟩

/-- Bytes of a sequence that do not end it. -/
def CsiByte (b : UInt8) : Prop := 0x20 ≤ b ∧ b ≤ 0x3f

theorem ControlSequence.csiByte_text (seq : ControlSequence) : ∀ b ∈ seq.text, CsiByte b := by
  intro b hb
  unfold CsiByte
  rcases List.mem_append.mp hb with hfront | hintermed
  · rcases List.mem_append.mp hfront with hleader | hparam
    · have := seq.leader_bytes b hleader
      grind
    · have := seq.params_bytes b hparam
      grind
  · have := seq.intermed_bytes b hintermed
    grind

theorem CsiByte.stringByte {b : UInt8} (h : CsiByte b) (utf8 : Bool) (len : ℕ) :
    stringByte utf8 .csi len b = .part .csi := by
  obtain ⟨hlow, hhigh⟩ := h
  have hnul : ¬ (b = 0x00 ∨ b = 0x7f) := by grind
  have hcan : ¬ (b = 0x18 ∨ b = 0x1a) := by grind
  have hesc : b ≠ 0x1b := by grind
  have hbel : ¬ (b = 0x07 ∧ (ParserState.csi = .osc ∨ ParserState.csi = .dcs)) := by grind
  have hc0 : ¬ b < 0x20 := by grind
  have hfinal : ¬ (0x40 ≤ b ∧ b ≤ 0x7f) := by grind
  unfold Vterm.stringByte stringChar
  rw [if_neg hnul, if_neg hcan, if_neg hesc, if_neg hbel, if_neg hc0]
  exact if_neg hfinal

section Push
variable {σ : Type*} (cb : ParserCallbacks σ)

theorem pushLoop_csiBytes (saved more : List UInt8) (s : σ) {bytes : List UInt8}
    (h : ∀ b ∈ bytes, CsiByte b) (frag : List UInt8) :
    pushLoop cb (bytes ++ more) 0 ⟨.csi, saved⟩ s (some frag) =
      pushLoop cb more 0 ⟨.csi, saved⟩ s (some (frag ++ bytes)) := by
  induction bytes generalizing frag with
  | nil => rw [List.nil_append, List.append_nil]
  | cons b bytes ih =>
    have hbyte := (h b List.mem_cons_self).stringByte (cb.isUtf8 s) 0
    obtain ⟨hpush, -, -⟩ := pushByte_part saved frag (bytes ++ more) hbyte
    rw [List.cons_append, pushLoop_cons hpush, ih fun c hc => h c (List.mem_cons_of_mem _ hc),
      List.append_assoc, List.singleton_append]

/-- The callback for a gathered string. -/
def csiCallback (s : σ) (str : List UInt8) : σ := cb.csi s str.dropLast (str.getLastD 0)

theorem pushLoop_final (saved : List UInt8) (s : σ) (frag : List UInt8) {final : UInt8}
    (h : 0x40 ≤ final ∧ final ≤ 0x7e) :
    pushLoop cb [final] 0 ⟨.csi, saved⟩ s (some frag) =
      (⟨.normal, []⟩, csiCallback cb s
        (Parser.wholeString ⟨.csi, saved⟩ (frag ++ [final]) (frag.length + 1))) := by
  obtain ⟨hlow, hhigh⟩ := h
  have hstring : ParserState.csi ≠ .normal := nofun
  have hpush : pushByte cb ⟨.csi, saved⟩ s (some frag) final [] =
      some (pushString cb ⟨.csi, saved⟩ s frag final []) :=
    pushByte_string s frag [] hstring (by grind) (by grind) (by grind) (Or.inr (by grind))
  have hfinal : pushString cb ⟨.csi, saved⟩ s frag final [] =
      ((finishString cb ⟨.csi, saved⟩ s (frag ++ [final]) (frag.length + 1)).1,
        (finishString cb ⟨.csi, saved⟩ s (frag ++ [final]) (frag.length + 1)).2, none) :=
    if_pos (by grind)
  rw [hfinal] at hpush
  rw [pushLoop_cons hpush]
  rfl

theorem pushLoop_bracket {state : ParserState}
    (hstate : state = .esc ∨ state = .escInOsc ∨ state = .escInDcs) (saved : List UInt8) (s : σ)
    (frag rest : List UInt8) :
    pushLoop cb (0x5b :: rest) 0 ⟨state, saved⟩ s (some frag) =
      pushLoop cb rest 0 ⟨.csi, saved⟩ s (some []) := by
  rcases hstate with rfl | rfl | rfl <;> exact pushLoop_cons rfl

theorem pushLoop_introducer (p : Parser) (s : σ) (frag : Option (List UInt8))
    (rest : List UInt8) :
    pushLoop cb (0x1b :: 0x5b :: rest) 0 p s frag =
      pushLoop cb rest 0 ⟨.csi, p.strbuffer⟩ s (some []) := by
  obtain ⟨state, saved⟩ := p
  have hbracket : ∀ {frag}, pushLoop cb (0x5b :: rest) 0 ⟨.esc, saved⟩ s (some frag) =
      pushLoop cb rest 0 ⟨.csi, saved⟩ s (some []) := pushLoop_cons rfl
  cases state with
  | osc =>
    have hesc : pushByte cb ⟨.osc, saved⟩ s frag 0x1b (0x5b :: rest) =
        some (⟨.escInOsc, saved⟩, s, frag.map (· ++ [0x1b])) := rfl
    rw [pushLoop_cons hesc]
    exact pushLoop_cons rfl
  | dcs =>
    have hesc : pushByte cb ⟨.dcs, saved⟩ s frag 0x1b (0x5b :: rest) =
        some (⟨.escInDcs, saved⟩, s, frag.map (· ++ [0x1b])) := rfl
    rw [pushLoop_cons hesc]
    exact pushLoop_cons rfl
  | normal | esc | csi | escInOsc | escInDcs => exact (pushLoop_cons rfl).trans hbracket

/-- The string of do_string from a read that ends the sequence. -/
theorem wholeString_gathered (saved : List UInt8) {got chunk : List UInt8} (hzero : 0 ∉ chunk)
    (hlength : chunk.length ≤ strbufferLen) :
    Parser.wholeString ⟨.csi, gathered saved got⟩ chunk chunk.length =
      gathered saved (got ++ chunk) := by
  unfold Parser.wholeString
  by_cases hempty : gathered saved got = []
  · obtain ⟨rfl, hgot⟩ := List.append_eq_nil_iff.mp hempty
    have hnone : got = [] := by
      rcases List.take_eq_nil_iff.mp hgot with hzero | hnil
      · exact absurd hzero (by decide)
      · exact hnil
    rw [if_pos hempty, hnone, List.take_length]
    exact (List.take_of_length_le hlength).symm
  · rw [if_neg hempty, appendStrbuffer_eq _ _ hzero, gathered_append]

/-- What a read does that comes up to `more`: the sequence goes on in the parser, or the gathered
string is handed on. -/
def Delivers (seq : ControlSequence) (saved more : List UInt8) (s : σ) (after : Parser × σ) :
    Prop :=
  (more ≠ [] → ∃ p, after = (p, s) ∧ Receiving saved seq.body more p) ∧
    (more = [] → after = (⟨.normal, []⟩, csiCallback cb s (gathered saved seq.body)))

/-- A read inside the sequence, after `got`. -/
theorem pushLoop_inside (seq : ControlSequence) (saved : List UInt8) (s : σ)
    {got chunk more : List UInt8} (hbody : seq.body = got ++ (chunk ++ more))
    (hrest : chunk ++ more ≠ []) (hlength : chunk.length ≤ strbufferLen) :
    Delivers cb seq saved more s
      (pushLoop cb chunk 0 ⟨.csi, gathered saved got⟩ s (some [])) := by
  have hnonzero : ∀ {b}, CsiByte b → b ≠ 0 := by
    rintro b ⟨hlow, -⟩ rfl
    exact absurd hlow (by decide)
  constructor
  · intro hmore
    refine ⟨⟨.csi, gathered saved (got ++ chunk)⟩, ?_,
      .inside (by rw [hbody, List.append_assoc]) hmore⟩
    obtain ⟨init, last, rfl⟩ := (List.eq_nil_or_concat more).resolve_left hmore
    rw [List.concat_eq_append, ← List.append_assoc chunk, ← List.append_assoc got] at hbody
    obtain ⟨htext, -⟩ := List.append_inj' hbody rfl
    have hbytes : ∀ b ∈ chunk, CsiByte b := by
      intro b hb
      apply seq.csiByte_text
      rw [htext]
      exact List.mem_append_right _ (List.mem_append_left _ hb)
    have hpush := pushLoop_csiBytes cb (gathered saved got) [] s hbytes []
    rw [List.append_nil, List.nil_append] at hpush
    rw [hpush]
    change (Parser.appendStrbuffer _ chunk chunk.length, s) = _
    rw [appendStrbuffer_eq _ _ fun hzero => hnonzero (hbytes 0 hzero) rfl, gathered_append]
  · rintro rfl
    rw [List.append_nil] at hbody hrest
    obtain ⟨init, last, rfl⟩ := (List.eq_nil_or_concat chunk).resolve_left hrest
    rw [List.concat_eq_append] at hbody hlength ⊢
    have hsplit : seq.text ++ [seq.final] = got ++ init ++ [last] := by
      rw [List.append_assoc]
      exact hbody
    obtain ⟨htext, hlast⟩ := List.append_inj' hsplit rfl
    cases hlast
    have hbytes : ∀ b ∈ init, CsiByte b := by
      intro b hb
      apply seq.csiByte_text
      rw [htext]
      exact List.mem_append_right _ hb
    have hzero : 0 ∉ init ++ [seq.final] := by
      intro hmem
      rcases List.mem_append.mp hmem with hinit | hfinal
      · exact hnonzero (hbytes 0 hinit) rfl
      · have hlow := seq.final_byte.1
        rw [← List.mem_singleton.mp hfinal] at hlow
        exact absurd hlow (by decide)
    have hcount : init.length + 1 = (init ++ [seq.final]).length := by
      rw [List.length_append, List.length_singleton]
    rw [pushLoop_csiBytes cb _ _ s hbytes, List.nil_append, pushLoop_final cb _ _ _ seq.final_byte,
      hcount, wholeString_gathered saved hzero hlength, hbody]

theorem Receiving.delivers {seq : ControlSequence} {saved chunk more : List UInt8} {p : Parser}
    (h : Receiving saved seq.body (chunk ++ more) p) (s : σ)
    (hlength : chunk.length ≤ strbufferLen) :
    Delivers cb seq saved more s (pushBytes cb p s chunk) := by
  generalize hrest : chunk ++ more = rest at h
  cases h with
  | @escape state hstate =>
    cases chunk with
    | nil =>
      rw [List.nil_append] at hrest
      subst hrest
      exact ⟨fun _ => ⟨_, pushBytes_nil _ s, .escape hstate⟩, nofun⟩
    | cons c chunk =>
      rw [List.cons_append] at hrest
      obtain ⟨rfl, hbody⟩ := List.cons.inj hrest
      have hne : chunk ++ more ≠ [] := by
        rw [hbody]
        exact seq.body_ne_nil
      have hinside := pushLoop_inside cb seq saved s ((List.nil_append _).trans hbody).symm hne
        (Nat.le_of_succ_le hlength)
      have hstring : state ≠ .normal := by
        rintro rfl
        simp at hstate
      rw [gathered_nil] at hinside
      unfold pushBytes
      rw [if_neg hstring, pushLoop_bracket cb hstate]
      exact hinside
  | inside hbody hne =>
    subst hrest
    exact pushLoop_inside cb seq saved s hbody hne hlength

/-- An ESC that ends its read. -/
theorem pushBytes_escAlone (p : Parser) (s : σ) (chunks : List (List UInt8)) :
    ∃ state, (state = .esc ∨ state = .escInOsc ∨ state = .escInDcs) ∧
      pushBytes cb p s [0x1b] = (⟨state, p.behindEsc ([0x1b] :: chunks)⟩, s) := by
  obtain ⟨state, saved⟩ := p
  have hfind : ([0x1b] :: chunks).find? (· ≠ []) = some [(0x1b : UInt8)] := rfl
  have hsave : ∀ state, Parser.save ⟨state, saved⟩ [0x1b] = ⟨state, gathered saved [0x1b]⟩ :=
    fun state => appendStrbuffer_eq state saved (by decide)
  unfold Parser.behindEsc
  rw [hfind]
  cases state with
  | osc => exact ⟨.escInOsc, by simp, congrArg (·, s) (hsave .escInOsc)⟩
  | dcs => exact ⟨.escInDcs, by simp, congrArg (·, s) (hsave .escInDcs)⟩
  | normal | esc | csi | escInOsc | escInDcs =>
    exact ⟨.esc, by simp, congrArg (·, s) (save_nil ⟨.esc, saved⟩)⟩

/-- The read with the ESC of the sequence. -/
theorem pushBytes_esc (seq : ControlSequence) (p : Parser) (s : σ) {chunk : List UInt8}
    {chunks : List (List UInt8)} (h : chunk ++ chunks.flatten = 0x5b :: seq.body)
    (hlength : (0x1b :: chunk).length ≤ strbufferLen) :
    Delivers cb seq (p.behindEsc ((0x1b :: chunk) :: chunks)) chunks.flatten s
      (pushBytes cb p s (0x1b :: chunk)) := by
  cases chunk with
  | nil =>
    obtain ⟨state, hstate, hpush⟩ := pushBytes_escAlone cb p s chunks
    rw [List.nil_append] at h
    rw [hpush, h]
    exact ⟨fun _ => ⟨_, rfl, .escape hstate⟩, nofun⟩
  | cons c chunk =>
    rw [List.cons_append] at h
    obtain ⟨rfl, hbody⟩ := List.cons.inj h
    have hbehind : p.behindEsc ((0x1b :: 0x5b :: chunk) :: chunks) = p.strbuffer := by
      refine if_neg fun hcut => ?_
      have hfind := hcut.2
      rw [List.find?_cons_of_pos (by simp)] at hfind
      cases hfind
    have hne : chunk ++ chunks.flatten ≠ [] := by
      rw [hbody]
      exact seq.body_ne_nil
    have hinside := pushLoop_inside cb seq p.strbuffer s
      ((List.nil_append _).trans hbody).symm hne (Nat.le_of_succ_le (Nat.le_of_succ_le hlength))
    rw [gathered_nil] at hinside
    unfold pushBytes
    rw [hbehind, pushLoop_introducer]
    exact hinside

end Push

/-- Nothing is called for empty reads. -/
theorem recvsCalls_of_flatten_nil (t : VTerm) {chunks : List (List UInt8)}
    (h : chunks.flatten = []) :
    recvsCalls t chunks = [] := by
  induction chunks with
  | nil => rfl
  | cons chunk chunks ih =>
    rw [List.flatten_cons] at h
    obtain ⟨rfl, hrest⟩ := List.append_eq_nil_iff.mp h
    have hcalls : recvCalls t [] = [] := by
      unfold recvCalls parserCalls
      rw [pushBytes_nil]
    rw [recvsCalls, hcalls, webvtermRecv_nil, ih hrest]
    rfl

theorem Receiving.ne_nil {saved body rest : List UInt8} {p : Parser}
    (h : Receiving saved body rest p) : rest ≠ [] := by
  cases h with
  | escape => exact List.cons_ne_nil _ _
  | inside _ hne => exact hne

/-- What is called in all, if the first read delivers and the others do. -/
theorem recvsCalls_of_delivers {seq : ControlSequence} {saved chunk : List UInt8} {t : VTerm}
    {chunks : List (List UInt8)}
    (hchunk : ∀ {σ : Type} (cb : ParserCallbacks σ) (s : σ),
      Delivers cb seq saved chunks.flatten s (pushBytes cb t.parser s chunk))
    (hchunks : ∀ {t : VTerm}, Receiving saved seq.body chunks.flatten t.parser →
      recvsCalls t chunks =
        [.csi (gathered saved seq.body).dropLast ((gathered saved seq.body).getLastD 0)]) :
    recvsCalls t (chunk :: chunks) =
      [.csi (gathered saved seq.body).dropLast ((gathered saved seq.body).getLastD 0)] := by
  have hcalls := hchunk parserCallbacks.recording (t.display, [])
  have hrecv := hchunk parserCallbacks t.display
  rw [recvsCalls]
  by_cases hmore : chunks.flatten = []
  · have hcall : recvCalls t chunk =
        [.csi (gathered saved seq.body).dropLast ((gathered saved seq.body).getLastD 0)] := by
      unfold recvCalls parserCalls
      rw [hcalls.2 hmore]
      rfl
    rw [hcall, recvsCalls_of_flatten_nil _ hmore, List.append_nil]
  · obtain ⟨p, hpush, -⟩ := hcalls.1 hmore
    obtain ⟨q, hpush', hnext⟩ := hrecv.1 hmore
    have hcall : recvCalls t chunk = [] := by
      unfold recvCalls parserCalls
      rw [hpush]
    have hafter : webvtermRecv t chunk = ⟨q, t.display⟩ := by
      unfold webvtermRecv
      rw [hpush']
    rw [hcall, hafter, List.nil_append]
    exact hchunks hnext

/-- Over the reads behind its ESC, the sequence makes one callback, for the gathered string. -/
theorem Receiving.recvsCalls {seq : ControlSequence} {saved : List UInt8} {t : VTerm}
    {chunks : List (List UInt8)} (h : Receiving saved seq.body chunks.flatten t.parser)
    (hreads : ∀ chunk ∈ chunks, chunk.length ≤ strbufferLen) :
    Vterm.recvsCalls t chunks =
      [.csi (gathered saved seq.body).dropLast ((gathered saved seq.body).getLastD 0)] := by
  induction chunks generalizing t with
  | nil => exact absurd rfl h.ne_nil
  | cons chunk chunks ih =>
    rw [List.flatten_cons] at h
    have hlength := hreads chunk List.mem_cons_self
    exact recvsCalls_of_delivers (fun cb s => h.delivers cb s hlength) fun hnext =>
      ih hnext fun c hc => hreads c (List.mem_cons_of_mem _ hc)

/-- Over all its reads, the sequence makes one callback. -/
theorem recvsCalls_sequence (seq : ControlSequence) {t : VTerm} {chunks : List (List UInt8)}
    (hreads : ∀ chunk ∈ chunks, chunk.length ≤ strbufferLen)
    (hchunks : chunks.flatten = seq.bytes) :
    recvsCalls t chunks = [.csi (gathered (t.parser.behindEsc chunks) seq.body).dropLast
      ((gathered (t.parser.behindEsc chunks) seq.body).getLastD 0)] := by
  induction chunks with
  | nil => cases hchunks
  | cons chunk chunks ih =>
    have hrest : ∀ c ∈ chunks, c.length ≤ strbufferLen := fun c hc =>
      hreads c (List.mem_cons_of_mem _ hc)
    rw [List.flatten_cons] at hchunks
    cases chunk with
    | nil =>
      have hcalls : recvCalls t [] = [] := by
        unfold recvCalls parserCalls
        rw [pushBytes_nil]
      have hbehind : t.parser.behindEsc ([] :: chunks) = t.parser.behindEsc chunks := by
        unfold Parser.behindEsc
        rw [List.find?_cons_of_neg (by simp)]
      rw [hbehind, recvsCalls, hcalls, webvtermRecv_nil, List.nil_append]
      exact ih hrest hchunks
    | cons c chunk =>
      obtain ⟨rfl, hbracket⟩ := List.cons.inj hchunks
      exact recvsCalls_of_delivers (fun cb s => pushBytes_esc cb seq t.parser s hbracket
        (hreads _ List.mem_cons_self)) fun hnext => hnext.recvsCalls hrest

/-- `strbuffer` is empty when the sequence begins and can hold it, or it is full with the very same
bytes. -/
def ControlSequence.Arrives (seq : ControlSequence) (saved : List UInt8) : Prop :=
  saved = [] ∧ seq.body.length ≤ strbufferLen ∨ saved = seq.body ∧ strbufferLen ≤ seq.body.length

theorem gathered_eq_iff (seq : ControlSequence) (saved : List UInt8) :
    gathered saved seq.body = seq.body ↔ seq.Arrives saved := by
  have hlength : seq.body.length = seq.text.length + 1 := by
    unfold ControlSequence.body
    rw [List.length_append, List.length_singleton]
  unfold gathered ControlSequence.Arrives
  constructor
  · intro h
    have htotal := congrArg List.length h
    rw [List.length_append, List.length_take] at htotal
    by_cases hsaved : saved = []
    · subst hsaved
      rw [List.length_nil] at htotal
      exact Or.inl ⟨rfl, by omega⟩
    · have hpos : 0 < saved.length := List.length_pos_iff.mpr hsaved
      by_cases hroom : strbufferLen - saved.length = 0
      · rw [hroom, List.take_zero, List.append_nil] at h
        rw [← h]
        exact Or.inr ⟨rfl, by omega⟩
      · -- the last byte that is saved is none that ends a sequence
        have htake : seq.body.take (strbufferLen - saved.length) =
            seq.text.take (strbufferLen - saved.length) :=
          List.take_append_of_le_length (by omega)
        have hne : seq.text.take (strbufferLen - saved.length) ≠ [] := by
          intro hnil
          have hnone := congrArg List.length hnil
          rw [List.length_take, List.length_nil] at hnone
          omega
        have hlast : seq.final = (seq.text.take (strbufferLen - saved.length)).getLast hne := by
          have hends := congrArg List.getLast? h
          rw [htake, List.getLast?_append_of_ne_nil _ hne,
            List.getLast?_eq_some_getLast hne] at hends
          exact (Option.some.inj (hends.trans List.getLast?_concat)).symm
        have hmem : seq.final ∈ seq.text := by
          rw [hlast]
          exact List.mem_of_mem_take (List.getLast_mem hne)
        have hhigh := (seq.csiByte_text _ hmem).2
        have hlow := seq.final_byte.1
        grind
  · rintro (⟨rfl, hfits⟩ | ⟨rfl, hfull⟩)
    · exact List.take_of_length_le hfits
    · rw [Nat.sub_eq_zero_of_le hfull, List.take_zero, List.append_nil]

/-- The sequence's own bytes reach do_string_csi, which hands on what they say, and a colour change
made of the arguments keeps to them. -/
structure ControlSequence.Faithful (seq : ControlSequence) (t : VTerm)
    (chunks : List (List UInt8)) : Prop where
  received : recvsCalls t chunks = [.csi seq.text seq.final]
  decoded : seq.Decoded
  keepsToArgs : KeepsToArgs seq.args

theorem gathered_ne_nil (seq : ControlSequence) (saved : List UInt8) :
    gathered saved seq.body ≠ [] := by
  intro hnil
  obtain ⟨hsaved, htake⟩ := List.append_eq_nil_iff.mp hnil
  rcases List.take_eq_nil_iff.mp htake with hfull | hbody
  · rw [hsaved] at hfull
    exact absurd hfull (by decide)
  · exact seq.body_ne_nil hbody

theorem received_iff_arrives (seq : ControlSequence) {t : VTerm} {chunks : List (List UInt8)}
    (hreads : ∀ chunk ∈ chunks, chunk.length ≤ strbufferLen)
    (hchunks : chunks.flatten = seq.bytes) :
    recvsCalls t chunks = [.csi seq.text seq.final] ↔
      seq.Arrives (t.parser.behindEsc chunks) := by
  rw [recvsCalls_sequence seq hreads hchunks, ← gathered_eq_iff]
  obtain ⟨text, final, hsplit⟩ :=
    (List.eq_nil_or_concat _).resolve_left (gathered_ne_nil seq (t.parser.behindEsc chunks))
  rw [hsplit, List.concat_eq_append, List.dropLast_concat, List.getLastD_concat]
  unfold ControlSequence.body
  rw [List.append_singleton_inj]
  simp

/-- A control sequence is faithfully received exactly when nothing is left in front of it, its
leader and intermediate bytes fit, and its arguments divide into selections. -/
theorem faithful_iff (seq : ControlSequence) (t : VTerm) (chunks : List (List UInt8))
    (hreads : ∀ chunk ∈ chunks, chunk.length ≤ strbufferLen)
    (hchunks : chunks.flatten = seq.bytes) :
    seq.Faithful t chunks ↔
      seq.Arrives (t.parser.behindEsc chunks) ∧ seq.Fits ∧ SgrComplete seq.args := by
  rw [← received_iff_arrives seq hreads hchunks, ← seq.decoded_iff_fits, ← keepsToArgs_iff]
  exact ⟨fun h => ⟨h.received, h.decoded, h.keepsToArgs⟩, fun h => ⟨h.1, h.2.1, h.2.2⟩⟩

/-- ESC [ 1 ; 31 m -/
def ControlSequence.boldRed : ControlSequence where
  leader := []
  params := [0x31, 0x3b, 0x33, 0x31]
  intermed := []
  final := 0x6d
  leader_bytes := nofun
  params_bytes := by decide +kernel
  intermed_bytes := nofun
  final_byte := by decide
  values := by decide +kernel

theorem faithful_iff_boldRed :
    ControlSequence.boldRed.Faithful (webvtermInit 80 25 (fun _ => .blank .zero) [])
      [[0x1b, 0x5b, 0x31], [], [0x3b, 0x33, 0x31, 0x6d]] := by
  have harrives : ControlSequence.boldRed.Arrives ((webvtermInit 80 25 (fun _ => .blank .zero)
      []).parser.behindEsc [[0x1b, 0x5b, 0x31], [], [0x3b, 0x33, 0x31, 0x6d]]) :=
    Or.inl ⟨rfl, by decide⟩
  have hfits : ControlSequence.boldRed.Fits := by
    unfold ControlSequence.Fits
    decide
  have hcomplete : SgrComplete ControlSequence.boldRed.args := by
    have hargs : ControlSequence.boldRed.args = [1, 31] := by decide
    rw [hargs]
    exact .cons (.plain (by decide) rfl) (.cons (.plain (by decide) rfl) .nil)
  exact (faithful_iff _ _ _ (by decide) rfl).mpr ⟨harrives, hfits, hcomplete⟩

/-- ESC [ 38 m -/
def ControlSequence.colourWithoutPalette : ControlSequence where
  leader := []
  params := [0x33, 0x38]
  intermed := []
  final := 0x6d
  leader_bytes := nofun
  params_bytes := by decide +kernel
  intermed_bytes := nofun
  final_byte := by decide
  values := by decide +kernel

/-- The check in front of lookup_colour wants one argument where two are read. -/
theorem not_faithful_colourWithoutPalette :
    ¬ ∀ (seq : ControlSequence) (t : VTerm) (chunks : List (List UInt8)),
      (∀ chunk ∈ chunks, chunk.length ≤ strbufferLen) → chunks.flatten = seq.bytes →
        seq.Faithful t chunks := by
  intro hall
  have hfaithful := hall .colourWithoutPalette (webvtermInit 80 25 (fun _ => .blank .zero) [])
    [[0x1b, 0x5b, 0x33, 0x38, 0x6d]] (by decide) rfl
  have hinside := hfaithful.keepsToArgs.inside [] 1 (by decide)
  exact absurd hinside (by decide)

end Jterm.Vterm
