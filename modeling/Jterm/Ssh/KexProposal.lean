import Jterm.Ssh.KexAgree

/-!
The key exchange as it is meant: each side proposes lists of names, and of every kind the
first one of the client's names is taken that the server has too. `kexinit` writes the
session's proposal, and `kex_agree_methods` negotiates with the server's.
-/
namespace Jterm.Ssh.Kex

open Transport

/-- The lists of a KEXINIT. -/
structure Proposal where
  kex : List Name
  hostkey : List Name
  cryptCs : List Name
  cryptSc : List Name
  macCs : List Name
  macSc : List Name
  compCs : List Name
  compSc : List Name
  langCs : List Name
  langSc : List Name
  deriving DecidableEq, Repr

def Proposal.lists (p : Proposal) : List (List Name) :=
  [p.kex, p.hostkey, p.cryptCs, p.cryptSc, p.macCs, p.macSc, p.compCs, p.compSc, p.langCs, p.langSc]

def nameList (names : List Name) : List UInt8 := htonu32 (joined names).length ++ joined names

/-- The KEXINIT with these lists. -/
def Proposal.packet (p : Proposal) (cookie : List UInt8) (follows : UInt8) (reserved : List UInt8) :
    List UInt8 :=
  20 :: (cookie ++ (p.lists.flatMap nameList ++ follows :: reserved))

/-- The methods of one kind that a session offers, the best ones first. -/
def offered {α : Type*} (prefs : Option (List UInt8)) (methods : List α) (name : α → Name) : List α :=
  match prefs with
  | none => methods
  | some prefs => (prefNames prefs).filterMap fun pref => methods.find? (name · == pref)

def proposal (sup : Supported) (s : Session) : Proposal where
  kex := (offered s.kexPrefs sup.kex (·.name)).map (·.name)
  hostkey := (offered s.hostkeyPrefs sup.hostkey (·.name)).map (·.name)
  cryptCs := offered s.localData.cryptPrefs sup.crypt id
  cryptSc := offered s.remoteData.cryptPrefs sup.crypt id
  macCs := offered s.localData.macPrefs sup.mac id
  macSc := offered s.remoteData.macPrefs sup.mac id
  compCs := offered s.localData.compPrefs sup.comp id
  compSc := offered s.remoteData.compPrefs sup.comp id
  langCs := (s.localData.langPrefs.map prefNames).getD []
  langSc := (s.remoteData.langPrefs.map prefNames).getD []

/-- What the two sides agree on. -/
structure Agreement where
  kex : KexMethod
  hostkey : HostkeyMethod
  cryptCs : Name
  cryptSc : Name
  macCs : Name
  macSc : Name
  compCs : Name
  compSc : Name
  deriving DecidableEq, Repr

/-- The first of the client's host keys that the server has and that suits the key exchange. -/
def chooseHostkey (client : List HostkeyMethod) (server : List Name) (kex : KexMethod) :
    Option HostkeyMethod :=
  client.find? fun method => method.name ∈ server && suitsKex kex method

/-- The first of the client's key exchanges that the server has and that some host key suits. -/
def chooseKex (client : List KexMethod) (hostkeys : List HostkeyMethod) (server : Proposal) :
    Option (KexMethod × HostkeyMethod) :=
  client.findSome? fun method =>
    if method.name ∈ server.kex then (chooseHostkey hostkeys server.hostkey method).map (method, ·)
    else none

def choose (client server : List Name) : Option Name := client.find? (· ∈ server)

def negotiate (sup : Supported) (s : Session) (server : Proposal) : Option Agreement := do
  let client := proposal sup s
  let (kex, hostkey) ← chooseKex (offered s.kexPrefs sup.kex (·.name))
    (offered s.hostkeyPrefs sup.hostkey (·.name)) server
  let cryptCs ← choose client.cryptCs server.cryptCs
  let cryptSc ← choose client.cryptSc server.cryptSc
  let macCs ← choose client.macCs server.macCs
  let macSc ← choose client.macSc server.macSc
  let compCs ← choose client.compCs server.compCs
  let compSc ← choose client.compSc server.compSc
  return ⟨kex, hostkey, cryptCs, cryptSc, macCs, macSc, compCs, compSc⟩

/-! Preferences. -/

/-- The methods have names, and preferences are a list of some of these. -/
structure Usable {α : Type*} (prefs : Option (List UInt8)) (methods : List α) (name : α → Name) :
    Prop where
  named : ∀ method ∈ methods, IsName (name method)
  known : ∀ list ∈ prefs, ∃ names, list = joined names ∧
    ∀ pref ∈ names, ∃ method ∈ methods, name method = pref

theorem joined_eq (names : List Name) : joined names = [comma].intercalate names := by
  cases names with
  | nil => rfl
  | cons name names =>
    induction names generalizing name with
    | nil => simp [joined, behind]
    | cons next names ih =>
      rw [List.intercalate_cons_cons, ← ih]
      simp [joined, behind]

theorem prefNames_joined {names : List Name} (hnames : ∀ name ∈ names, IsName name) :
    prefNames (joined names) = names := by
  unfold prefNames
  cases names with
  | nil => rfl
  | cons name names =>
    have hsplit : (joined (name :: names)).splitOn comma = name :: names := by
      rw [joined_eq]
      exact List.splitOn_intercalate _ (fun n hn => (hnames n hn).2.1) (List.cons_ne_nil _ _)
    rw [hsplit]
    refine if_neg fun hlast => ?_
    have hmem := List.mem_of_getLast? hlast
    exact (hnames [] hmem).1 rfl

section
variable {α β : Type*} {prefs : Option (List UInt8)} {methods : List α} {name : α → Name}

theorem Usable.find {pref : Name} (hpref : ∃ method ∈ methods, name method = pref) :
    ∃ method ∈ methods, methods.find? (name · == pref) = some method ∧ name method = pref := by
  obtain ⟨method, hmem, rfl⟩ := hpref
  cases hfind : methods.find? (name · == name method) with
  | none =>
    have hnot := List.find?_eq_none.mp hfind method hmem
    simp at hnot
  | some found =>
    have hfound := List.find?_some hfind
    exact ⟨found, List.mem_of_find?_eq_some hfind, rfl, by simpa using hfound⟩

theorem Usable.names {list : List UInt8} (h : Usable (some list) methods name) :
    ∃ names, list = joined names ∧ (∀ pref ∈ names, IsName pref) ∧
      ∀ pref ∈ names, ∃ method ∈ methods, name method = pref := by
  obtain ⟨names, hlist, hnames⟩ := h.known list rfl
  refine ⟨names, hlist, ?_, hnames⟩
  intro pref hpref
  obtain ⟨method, hmem, rfl⟩ := hnames pref hpref
  exact h.named method hmem

/-- Every name that is tried has a method. -/
theorem Usable.candidates (h : Usable prefs methods name) :
    candidates prefs methods name =
      (offered prefs methods name).map fun method => (name method, some method) := by
  cases prefs with
  | none => rfl
  | some list =>
    obtain ⟨names, rfl, hnamed, hnames⟩ := h.names
    unfold Kex.candidates offered
    dsimp only
    rw [prefNames_joined hnamed]
    clear hnamed h
    induction names with
    | nil => rfl
    | cons pref names ih =>
      obtain ⟨method, -, hfind, hname⟩ := Usable.find (hnames pref List.mem_cons_self)
      rw [List.map_cons, List.filterMap_cons, hfind]
      dsimp only
      rw [List.map_cons, hname, ih fun n hn => hnames n (List.mem_cons_of_mem pref hn)]

theorem Usable.isName (h : Usable prefs methods name) {method : α}
    (hmem : method ∈ offered prefs methods name) : IsName (name method) := by
  cases prefs with
  | none => exact h.named method hmem
  | some list =>
    obtain ⟨pref, -, hfind⟩ := List.mem_filterMap.mp hmem
    exact h.named method (List.mem_of_find?_eq_some hfind)

/-! What the session sends. -/

theorem flatMap_comma {names : List Name} (h : names ≠ []) :
    (names.flatMap fun name => name ++ [comma]) = joined names ++ [comma] := by
  cases names with
  | nil => exact absurd rfl h
  | cons name names =>
    clear h
    induction names generalizing name with
    | nil => simp [joined, behind]
    | cons next names ih =>
      rw [List.flatMap_cons, ih]
      simp [joined, behind]

theorem kexMethodList_eq (names : List Name) : kexMethodList names = nameList names := by
  cases names with
  | nil => rfl
  | cons name names =>
    have hcommas := flatMap_comma (List.cons_ne_nil name names)
    have hlen : kexMethodStrlen (name :: names) = (joined (name :: names)).length := by
      have hsum := congrArg List.length hcommas
      rw [List.length_flatMap, List.length_append] at hsum
      simp only [List.length_append, List.length_singleton] at hsum
      change ((name :: names).map fun name => name.length + 1).sum - 1 = _
      rw [hsum, Nat.add_sub_cancel]
    unfold kexMethodList nameList
    rw [hcommas, hlen, List.take_left]

theorem Usable.methodPrefsStr (h : Usable prefs methods name) :
    methodPrefsStr prefs (methods.map name) =
      nameList ((offered prefs methods name).map name) := by
  cases prefs with
  | none => exact kexMethodList_eq _
  | some list =>
    have htried := congrArg (List.map Prod.fst) h.candidates
    obtain ⟨names, rfl, hnamed, hnames⟩ := h.names
    unfold Kex.candidates at htried
    dsimp only at htried
    rw [prefNames_joined hnamed, List.map_map, List.map_map] at htried
    have hall : (offered (some (joined names)) methods name).map name = names :=
      htried.symm.trans (List.map_id _)
    rw [hall]
    rfl

end

/-- The preferences of languages are lists of names too; there are no methods for them. -/
def LangPrefs (prefs : Option (List UInt8)) : Prop :=
  ∀ list ∈ prefs, ∃ names, list = joined names ∧ ∀ name ∈ names, IsName name

structure WellNamed (sup : Supported) (s : Session) : Prop where
  kex : Usable s.kexPrefs sup.kex (·.name)
  hostkey : Usable s.hostkeyPrefs sup.hostkey (·.name)
  cryptCs : Usable s.localData.cryptPrefs sup.crypt id
  cryptSc : Usable s.remoteData.cryptPrefs sup.crypt id
  macCs : Usable s.localData.macPrefs sup.mac id
  macSc : Usable s.remoteData.macPrefs sup.mac id
  compCs : Usable s.localData.compPrefs sup.comp id
  compSc : Usable s.remoteData.compPrefs sup.comp id
  langCs : LangPrefs s.localData.langPrefs
  langSc : LangPrefs s.remoteData.langPrefs

theorem LangPrefs.methodPrefsStr {prefs : Option (List UInt8)} (h : LangPrefs prefs) :
    methodPrefsStr prefs [] = nameList ((prefs.map prefNames).getD []) := by
  cases prefs with
  | none => rfl
  | some list =>
    obtain ⟨names, rfl, hnames⟩ := h list rfl
    rw [Option.map_some, Option.getD_some, prefNames_joined hnames]
    rfl

/-- The KEXINIT of a session is its proposal. -/
theorem kexinit_eq {sup : Supported} {s : Session} (h : WellNamed sup s) (cookie : List UInt8) :
    kexinit sup s cookie = (proposal sup s).packet cookie 0 (htonu32 0) := by
  have hcryptCs := h.cryptCs.methodPrefsStr
  have hcryptSc := h.cryptSc.methodPrefsStr
  have hmacCs := h.macCs.methodPrefsStr
  have hmacSc := h.macSc.methodPrefsStr
  have hcompCs := h.compCs.methodPrefsStr
  have hcompSc := h.compSc.methodPrefsStr
  simp only [List.map_id] at hcryptCs hcryptSc hmacCs hmacSc hcompCs hcompSc
  unfold kexinit
  rw [h.kex.methodPrefsStr, h.hostkey.methodPrefsStr, hcryptCs, hcryptSc, hmacCs, hmacSc, hcompCs,
    hcompSc, h.langCs.methodPrefsStr, h.langSc.methodPrefsStr]
  simp [Proposal.packet, Proposal.lists, proposal]

/-! What it makes of the server's. -/

theorem stringAt_nameList {data rest : List UInt8} {pos : ℕ} {names : List Name}
    (hdata : data.drop pos = nameList names ++ rest) (hlt : (joined names).length < 2 ^ 32) :
    stringAt data pos = ((joined names).length, joined names ++ rest) ∧
      data.drop (nextString data pos) = rest := by
  have hstring : stringAt data pos = ((joined names).length, joined names ++ rest) := by
    unfold stringAt
    rw [hdata, nameList, List.append_assoc, ntohu32_append hlt, ← List.drop_drop, hdata, nameList,
      List.append_assoc]
    rfl
  refine ⟨hstring, ?_⟩
  unfold nextString
  rw [hstring, Nat.add_assoc, ← List.drop_drop, hdata, nameList, List.append_assoc, ← List.drop_drop]
  change (joined names ++ rest).drop (joined names).length = rest
  rw [List.drop_left]

/-- Every list begins with a zero. -/
theorem stops_nameList {names : List Name} (h : (joined names).length < 2 ^ 24)
    (rest : List UInt8) : Stops (nameList names ++ rest) := by
  have hzero : (joined names).length / 2 ^ 24 % 256 = 0 := by omega
  unfold Stops nameList htonu32
  rw [hzero]
  rfl

/-- The search through the candidates is one through the offered methods. -/
theorem kexAgree_eq {α β γ : Type*} {server : List Name} (hserver : ∀ name ∈ server, IsName name)
    (hlt : (joined server).length < 2 ^ 32) {rest : List UInt8} (hrest : Stops rest)
    {name : α → Name} (suits : α → ℕ → Option β) (f : β → γ) (found : α → Option γ)
    (hfound : ∀ method pos, (suits method pos).map f = found method) {methods : List α}
    (hmethods : ∀ method ∈ methods, IsName (name method)) :
    (kexAgree ((joined server).length, joined server ++ rest) suits
      (methods.map fun method => (name method, some method))).map f =
        methods.findSome? fun method => if name method ∈ server then found method else none := by
  induction methods with
  | nil => rfl
  | cons method methods ih =>
    have hhere := kexAgreeInstr_iff (hmethods method List.mem_cons_self) hserver hrest hlt
    have hothers := ih fun m hm => hmethods m (List.mem_cons_of_mem method hm)
    rw [List.map_cons, List.findSome?_cons, kexAgree]
    dsimp only
    cases hinstr : kexAgreeInstr (joined server ++ rest) (joined server).length (name method) with
    | none =>
      rw [hinstr] at hhere
      rw [if_neg fun hmem => nomatch hhere.mpr hmem]
      exact hothers
    | some pos =>
      rw [hinstr] at hhere
      rw [if_pos (hhere.mp rfl), ← hfound method pos]
      dsimp only
      cases suits method pos with
      | none => exact hothers
      | some b => rfl

theorem kexAgreeName_eq {prefs : Option (List UInt8)} {names : List Name}
    (h : Usable prefs names id) {server : List Name} (hserver : ∀ name ∈ server, IsName name)
    (hlt : (joined server).length < 2 ^ 32) {rest : List UInt8} (hrest : Stops rest) :
    kexAgreeName prefs names ((joined server).length, joined server ++ rest) =
      choose (offered prefs names id) server := by
  have hsearch := kexAgree_eq hserver hlt hrest (fun name _ => some name) id some
    (fun _ _ => rfl) (fun _ hm => h.isName hm)
  unfold kexAgreeName choose
  rw [h.candidates]
  rw [Option.map_id, id_eq] at hsearch
  rw [hsearch]
  generalize offered prefs names id = client
  induction client with
  | nil => rfl
  | cons name client ih =>
    rw [List.findSome?_cons, List.find?_cons, ih]
    by_cases hmem : name ∈ server
    · simp [hmem]
    · simp [hmem]

theorem kexAgreeHostkey_eq {sup : Supported} {s : Session}
    (h : Usable s.hostkeyPrefs sup.hostkey (·.name)) {server : List Name}
    (hserver : ∀ name ∈ server, IsName name) (hlt : (joined server).length < 2 ^ 32)
    {rest : List UInt8} (hrest : Stops rest) (kex : KexMethod) :
    kexAgreeHostkey sup s kex ((joined server).length, joined server ++ rest) =
      chooseHostkey (offered s.hostkeyPrefs sup.hostkey (·.name)) server kex := by
  have hsearch := kexAgree_eq hserver hlt hrest
    (fun method _ => if suitsKex kex method then some method else none) id
    (fun method => if suitsKex kex method then some method else none)
    (fun _ _ => by rw [Option.map_id, id_eq]) (fun _ hm => h.isName hm)
  unfold kexAgreeHostkey chooseHostkey
  rw [h.candidates]
  rw [Option.map_id, id_eq] at hsearch
  rw [hsearch]
  generalize offered s.hostkeyPrefs sup.hostkey (·.name) = client
  induction client with
  | nil => rfl
  | cons method client ih =>
    rw [List.findSome?_cons, List.find?_cons, ih]
    by_cases hmem : method.name ∈ server
    · by_cases hsuits : suitsKex kex method = true
      · simp [hmem, hsuits]
      · simp [hmem, hsuits]
    · simp [hmem]

/-- The session with what has been agreed on. -/
def Session.withAgreed (s : Session) (a : Agreement) : Session :=
  { s with
    kex := some a.kex
    hostkey := some a.hostkey
    burnOptimisticKexinit := 0
    localData := { s.localData with
      crypt := some a.cryptCs, mac := some a.macCs, comp := some a.compCs }
    remoteData := { s.remoteData with
      crypt := some a.cryptSc, mac := some a.macSc, comp := some a.compSc } }

theorem joined_length_le {server : Proposal} {list : List Name} (h : list ∈ server.lists)
    (cookie : List UInt8) (follows : UInt8) (reserved : List UInt8) :
    (joined list).length ≤ (server.packet cookie follows reserved).length := by
  have hpart : (nameList list).length ≤ (server.lists.flatMap nameList).length := by
    rw [List.flatMap_def]
    exact (List.sublist_flatten_of_mem (List.mem_map_of_mem h)).length_le
  have hlen : (nameList list).length = 4 + (joined list).length := by
    rw [nameList, List.length_append]
    rfl
  rw [hlen] at hpart
  simp only [Proposal.packet, List.length_cons, List.length_append]
  omega

/-- A string with another list behind it. -/
structure ListAt (data : List UInt8) (pos : ℕ) (names : List Name) : Prop where
  short : (joined names).length < 2 ^ 24
  list : ∃ next rest, (joined next).length < 2 ^ 24 ∧
    data.drop pos = nameList names ++ (nameList next ++ rest)

theorem ListAt.kexAgreeName {data : List UInt8} {pos : ℕ} {server : List Name}
    (h : ListAt data pos server) (hserver : ∀ name ∈ server, IsName name)
    {prefs : Option (List UInt8)} {names : List Name} (hprefs : Usable prefs names id) :
    kexAgreeName prefs names (stringAt data pos) = choose (offered prefs names id) server := by
  obtain ⟨hshort, next, rest, hnext, hdata⟩ := h
  rw [(stringAt_nameList hdata (by omega)).1]
  exact kexAgreeName_eq hprefs hserver (by omega) (stops_nameList hnext rest)

theorem ListAt.kexAgreeKexHostkey {data : List UInt8} {pos pos' : ℕ} {server : Proposal}
    (hkex : ListAt data pos server.kex) (hhostkey : ListAt data pos' server.hostkey)
    (hserver : ∀ list ∈ server.lists, ∀ name ∈ list, IsName name) {sup : Supported} {s : Session}
    (hkexPrefs : Usable s.kexPrefs sup.kex (·.name))
    (hhostkeyPrefs : Usable s.hostkeyPrefs sup.hostkey (·.name)) :
    (kexAgreeKexHostkey sup s (stringAt data pos) (stringAt data pos')).map
        (fun found => (found.1, found.2.1)) =
      chooseKex (offered s.kexPrefs sup.kex (·.name))
        (offered s.hostkeyPrefs sup.hostkey (·.name)) server := by
  obtain ⟨hshort, next, rest, hnext, hdata⟩ := hkex
  obtain ⟨hshort', next', rest', hnext', hdata'⟩ := hhostkey
  rw [(stringAt_nameList hdata (by omega)).1, (stringAt_nameList hdata' (by omega)).1]
  have hkexNames := hserver server.kex (by simp [Proposal.lists])
  have hkeyNames := hserver server.hostkey (by simp [Proposal.lists])
  unfold Kex.kexAgreeKexHostkey chooseKex
  rw [hkexPrefs.candidates]
  refine kexAgree_eq hkexNames (by omega) (stops_nameList hnext rest) _ _ _ ?_
    fun _ hm => hkexPrefs.isName hm
  intro method pos
  rw [kexAgreeHostkey_eq hhostkeyPrefs hkeyNames (by omega) (stops_nameList hnext' rest'),
    Option.map_map]
  rfl

/-- Where `kex_agree_methods` locates the strings. -/
def stringPos (data : List UInt8) : ℕ → ℕ
  | 0 => 1 + 16
  | n + 1 => nextString data (stringPos data n)

theorem drop_stringPos {data tail : List UInt8} {lists : List (List Name)}
    (hdata : data.drop (stringPos data 0) = lists.flatMap nameList ++ tail)
    (hlists : ∀ list ∈ lists, (joined list).length < 2 ^ 24) {i : ℕ} (hi : i ≤ lists.length) :
    data.drop (stringPos data i) = (lists.drop i).flatMap nameList ++ tail := by
  induction i with
  | zero => exact hdata
  | succ i ih =>
    have hhere := ih (by omega)
    have hshort := hlists lists[i] (List.getElem_mem hi)
    rw [List.drop_eq_getElem_cons hi, List.flatMap_cons, List.append_assoc] at hhere
    exact (stringAt_nameList hhere (by omega)).2

theorem listAt_stringPos {data tail : List UInt8} {lists : List (List Name)}
    (hdata : data.drop (stringPos data 0) = lists.flatMap nameList ++ tail)
    (hlists : ∀ list ∈ lists, (joined list).length < 2 ^ 24) (i : ℕ) (hi : i + 1 < lists.length) :
    ListAt data (stringPos data i) lists[i] := by
  refine ⟨hlists _ (List.getElem_mem _), lists[i + 1], (lists.drop (i + 2)).flatMap nameList ++ tail,
    hlists _ (List.getElem_mem _), ?_⟩
  rw [drop_stringPos hdata hlists (by omega), List.drop_eq_getElem_cons (by omega),
    List.drop_eq_getElem_cons hi, List.flatMap_cons, List.flatMap_cons, List.append_assoc,
    List.append_assoc]

/-- A list's length begins with a zero. -/
theorem ListAt.zero {data : List UInt8} {pos : ℕ} {names : List Name} (h : ListAt data pos names) :
    data.getD pos 0 = 0 := by
  obtain ⟨hshort, next, rest, -, hdata⟩ := h
  have hzero := stops_nameList hshort (nameList next ++ rest)
  rw [← hdata] at hzero
  unfold Stops at hzero
  rw [List.getD_eq_getElem?_getD, List.getElem?_drop] at hzero
  rw [List.getD_eq_getElem?_getD]
  exact hzero

theorem agreeBoth_cases {agree : EndpointData → ℕ × List UInt8 → Option Name}
    {set : EndpointData → Name → EndpointData} {s : Session} {cs sc : ℕ × List UInt8}
    {result : Bool × Session} (h : agreeBoth agree set s cs sc = result) {forCs forSc : Option Name}
    (hcs : agree s.localData cs = forCs) (hsc : agree s.remoteData sc = forSc) :
    (result.1 = false ∧ result.2.burnOptimisticKexinit = s.burnOptimisticKexinit ∧
      (forCs = none ∨ forSc = none)) ∨
    ∃ nameCs nameSc, forCs = some nameCs ∧ forSc = some nameSc ∧
      result = (true, { s with
        localData := set s.localData nameCs, remoteData := set s.remoteData nameSc }) := by
  unfold agreeBoth at h
  rw [hcs] at h
  cases forCs with
  | none =>
    subst h
    exact .inl ⟨rfl, rfl, .inl rfl⟩
  | some nameCs =>
    dsimp only at h
    rw [hsc] at h
    cases forSc with
    | none =>
      subst h
      exact .inl ⟨rfl, rfl, .inr rfl⟩
    | some nameSc => exact .inr ⟨nameCs, nameSc, rfl, rfl, h.symm⟩

theorem agreed_none {result : Bool × Session} {s : Session} {agreement : Option Agreement}
    (hfail : result.1 = false) (hburn : result.2.burnOptimisticKexinit = 0)
    (hnone : agreement = none) :
    result.1 = agreement.isSome ∧ result.2.burnOptimisticKexinit = 0 ∧
      ∀ a ∈ agreement, result.2 = s.withAgreed a := by
  subst hnone
  exact ⟨hfail, hburn, nofun⟩

/-- With the KEXINIT of a server, whatever is behind it in memory, `kex_agree_methods` finds
methods of all kinds exactly when the proposals have an agreement, and takes these. The
server's first_kex_packet_follows makes no difference. -/
theorem kexAgreeMethods_negotiates {sup : Supported} {s : Session} (h : WellNamed sup s)
    {server : Proposal} (hserver : ∀ list ∈ server.lists, ∀ name ∈ list, IsName name)
    {cookie reserved : List UInt8} (hcookie : cookie.length = 16) {follows : UInt8}
    (hsmall : (server.packet cookie follows reserved).length ≤ 40000) (beyond : List UInt8) :
    let packet := server.packet cookie follows reserved
    let result := kexAgreeMethods sup s (packet ++ beyond) packet.length
    result.1 = (negotiate sup s server).isSome ∧ result.2.burnOptimisticKexinit = 0 ∧
      ∀ a ∈ negotiate sup s server, result.2 = s.withAgreed a := by
  intro packet result
  have hlists : ∀ list ∈ server.lists, (joined list).length < 2 ^ 24 := by
    intro list hlist
    have hle := joined_length_le hlist cookie follows reserved
    omega
  have hfront : (20 :: cookie : List UInt8).length = 1 + 16 := by simp [hcookie]
  have hdata : (packet ++ beyond).drop (1 + 16) =
      server.lists.flatMap nameList ++ (follows :: (reserved ++ beyond)) := by
    rw [← hfront]
    simp [packet, Proposal.packet]
  have hlen : (packet ++ beyond).length = packet.length + beyond.length := List.length_append
  have hresult : result = kexAgreeMethods sup s (packet ++ beyond) packet.length := rfl
  clear_value result
  generalize packet ++ beyond = data at hdata hlen hresult
  have hten : server.lists.length = 10 := rfl
  have hstrings := listAt_stringPos hdata hlists
  have hmethods := (hstrings 0 (by omega)).kexAgreeKexHostkey (hstrings 1 (by omega))
    hserver (s := { s with burnOptimisticKexinit := 0 }) h.kex h.hostkey
  simp only [Proposal.lists, List.forall_mem_cons, List.not_mem_nil, false_imp_iff, forall_const,
    and_true] at hserver
  obtain ⟨-, -, n3, n4, n5, n6, n7, n8, -, -⟩ := hserver
  have c3 : _ = choose _ server.cryptCs := (hstrings 2 (by omega)).kexAgreeName n3 h.cryptCs
  have c4 : _ = choose _ server.cryptSc := (hstrings 3 (by omega)).kexAgreeName n4 h.cryptSc
  have c5 : _ = choose _ server.macCs := (hstrings 4 (by omega)).kexAgreeName n5 h.macCs
  have c6 : _ = choose _ server.macSc := (hstrings 5 (by omega)).kexAgreeName n6 h.macSc
  have c7 : _ = choose _ server.compCs := (hstrings 6 (by omega)).kexAgreeName n7 h.compCs
  have c8 : _ = choose _ server.compSc := (hstrings 7 (by omega)).kexAgreeName n8 h.compSc
  have hzero := (hstrings 7 (by omega)).zero
  have hpos : stringPos data 7 < packet.length := by
    have hbehind := congrArg List.length (drop_stringPos hdata hlists (i := 7) (by omega))
    simp only [List.length_drop, List.length_append, List.length_cons] at hbehind
    omega
  unfold kexAgreeMethods at hresult
  simp only [stringPos] at c3 c4 c5 c6 c7 c8 hzero hpos hmethods
  dsimp only at hresult
  rw [hzero, if_neg (by omega)] at hresult
  unfold negotiate
  dsimp only [proposal]
  rw [← hmethods, hresult]
  clear hresult hmethods
  cases kexAgreeKexHostkey sup { s with burnOptimisticKexinit := 0 } _ _ with
  | none => exact ⟨rfl, rfl, nofun⟩
  | some found =>
    obtain ⟨kex, hostkey, first⟩ := found
    simp only [Option.map_some, Option.bind_eq_bind, Option.bind_some, ne_eq, not_true_eq_false,
      false_and, if_false]
    generalize hcrypt : agreeBoth (fun e => kexAgreeName e.cryptPrefs sup.crypt) _ _ _ _ = crypt
    rcases agreeBoth_cases hcrypt c3 c4 with ⟨hfail, hburn, hnone⟩ | ⟨cryptCs, cryptSc, hcs, hsc, rfl⟩
    · rw [hfail, Bool.not_false, if_pos rfl]
      exact agreed_none hfail hburn (by rcases hnone with h | h <;> simp [h])
    · simp only [hcs, hsc, Option.bind_some, Bool.not_true, Bool.false_eq_true, if_false]
      generalize hmac : agreeBoth (fun e => kexAgreeName e.macPrefs sup.mac) _ _ _ _ = mac
      rcases agreeBoth_cases hmac c5 c6 with ⟨hfail, hburn, hnone⟩ | ⟨macCs, macSc, hcs, hsc, rfl⟩
      · rw [hfail, Bool.not_false, if_pos rfl]
        exact agreed_none hfail hburn (by rcases hnone with h | h <;> simp [h])
      · simp only [hcs, hsc, Option.bind_some, Bool.not_true, Bool.false_eq_true, if_false]
        generalize hcomp : agreeBoth (fun e => kexAgreeName e.compPrefs sup.comp) _ _ _ _ = comp
        rcases agreeBoth_cases hcomp c7 c8 with
          ⟨hfail, hburn, hnone⟩ | ⟨compCs, compSc, hcs, hsc, rfl⟩
        · exact agreed_none hfail hburn (by rcases hnone with h | h <;> simp [h])
        · simp only [hcs, hsc, Option.bind_some]
          refine ⟨rfl, trivial, ?_⟩
          intro a ha
          rw [← Option.some.inj ha]
          rfl

def dhMethods : Supported where
  kex := [⟨nameOf "diffie-hellman-group14-sha1", false, true⟩,
    ⟨nameOf "diffie-hellman-group1-sha1", false, true⟩]
  hostkey := [⟨nameOf "ssh-rsa", false, true⟩, ⟨nameOf "ssh-dss", false, true⟩]
  crypt := [nameOf "aes256-ctr", nameOf "aes128-cbc"]
  mac := [nameOf "hmac-sha1", nameOf "hmac-md5"]
  comp := [nameOf "none"]

def Session.new : Session where
  kexPrefs := none
  hostkeyPrefs := none
  localData := ⟨none, none, none, none, none, none, none⟩
  remoteData := ⟨none, none, none, none, none, none, none⟩
  kex := none
  hostkey := none
  burnOptimisticKexinit := 0

/-- A server that prefers other methods, and says that it has sent a packet for its own. -/
def dssServer : Proposal where
  kex := [nameOf "diffie-hellman-group1-sha1", nameOf "diffie-hellman-group14-sha1"]
  hostkey := [nameOf "ssh-dss"]
  cryptCs := [nameOf "aes128-ctr", nameOf "aes128-cbc"]
  cryptSc := [nameOf "aes128-cbc", nameOf "aes256-ctr"]
  macCs := [nameOf "hmac-md5", nameOf "hmac-sha1"]
  macSc := [nameOf "hmac-md5"]
  compCs := [nameOf "none", nameOf "zlib"]
  compSc := [nameOf "none"]
  langCs := []
  langSc := []

theorem wellNamed_dh : WellNamed dhMethods Session.new := by
  have hkex : ∀ method ∈ dhMethods.kex, IsName method.name := by decide +kernel
  have hhostkey : ∀ method ∈ dhMethods.hostkey, IsName method.name := by decide +kernel
  have hcrypt : ∀ method ∈ dhMethods.crypt, IsName method := by decide +kernel
  have hmac : ∀ method ∈ dhMethods.mac, IsName method := by decide +kernel
  have hcomp : ∀ method ∈ dhMethods.comp, IsName method := by decide +kernel
  exact ⟨⟨hkex, nofun⟩, ⟨hhostkey, nofun⟩, ⟨hcrypt, nofun⟩, ⟨hcrypt, nofun⟩, ⟨hmac, nofun⟩,
    ⟨hmac, nofun⟩, ⟨hcomp, nofun⟩, ⟨hcomp, nofun⟩, nofun, nofun⟩

theorem kexAgreeMethods_negotiates_dss :
    let packet := dssServer.packet (List.replicate 16 7) 1 (htonu32 0)
    let result := kexAgreeMethods dhMethods Session.new (packet ++ [2, 0]) packet.length
    result.1 = true ∧ result.2.burnOptimisticKexinit = 0 ∧
      result.2.kex = some ⟨nameOf "diffie-hellman-group14-sha1", false, true⟩ ∧
        result.2.hostkey = some ⟨nameOf "ssh-dss", false, true⟩ ∧
          result.2.localData.crypt = some (nameOf "aes128-cbc") := by
  intro packet result
  have hvalid : ∀ list ∈ dssServer.lists, ∀ name ∈ list, IsName name := by decide +kernel
  have hsmall : packet.length ≤ 40000 := by decide +kernel
  obtain ⟨hfound, -, hagreed⟩ := kexAgreeMethods_negotiates wellNamed_dh hvalid
    List.length_replicate hsmall [2, 0]
  have hnegotiated : negotiate dhMethods Session.new dssServer = some
      ⟨⟨nameOf "diffie-hellman-group14-sha1", false, true⟩, ⟨nameOf "ssh-dss", false, true⟩,
        nameOf "aes128-cbc", nameOf "aes256-ctr", nameOf "hmac-sha1", nameOf "hmac-md5",
        nameOf "none", nameOf "none"⟩ := by decide +kernel
  have hresult : result.2 = _ := hagreed _ hnegotiated
  have hsome : result.1 = true := by
    rw [← Option.isSome_some, ← hnegotiated]
    exact hfound
  refine ⟨hsome, ?_⟩
  rw [hresult]
  exact ⟨rfl, rfl, rfl, rfl⟩

end Jterm.Ssh.Kex
