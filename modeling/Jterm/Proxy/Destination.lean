import Jterm.Page.Emsocket
import Jterm.Proxy.FailsCleanly
import Mathlib.Data.List.Infix
import Mathlib.Data.List.TakeWhile

/-!
The destination on its way from the page to the SOCKS server. The page sends the low byte of every
character, the proxy sends the low 16 bits of the port and the host up to its first zero byte.
-/
namespace Jterm.Proxy

open GoNet Page

/-- What do_connect passes to jss_set_server_address. -/
def serverAddress (serverad port : List UInt16) : List UInt16 := serverad ++ [0x3a] ++ port

/-- `net.SplitHostPort` over any alphabet that has a colon and brackets. -/
def splitAddress {α : Type} [DecidableEq α] (colon opening closing : α) (address : List α) :
    Option (List α × List α) := do
  let i ← (address.reverse.idxOf? colon).map fun i => address.length - 1 - i
  let (host, j, k) ←
    if address.head? = some opening then do
      let last ← address.idxOf? closing
      if last + 1 = i then some ((address.take last).drop 1, 1, last + 1) else none
    else
      if ((address.take i).idxOf? colon).isSome then none else some (address.take i, 0, 0)
  if ((address.drop j).idxOf? opening).isSome then none
  else if ((address.drop k).idxOf? closing).isSome then none
  else some (host, address.drop (i + 1))

theorem splitHostPort_eq : splitHostPort = splitAddress 0x3a 0x5b 0x5d := rfl

/-- `strconv.Atoi`, which knows no character outside ASCII. -/
def typedPort (portstr : List UInt16) : Option ℤ :=
  if portstr.all (· < 0x100) then atoi (portstr.map UInt16.toUInt8) else none

/-- The host and the port of an address as it is typed. -/
def typedDestination (address : List UInt16) : Option (List UInt16 × ℤ) := do
  let (host, portstr) ← splitAddress 0x3a 0x5b 0x5d address
  let port ← typedPort portstr
  some (host, port)

/-- A SOCKS4a CONNECT request with an empty user id: its host and its port. -/
def decodeSocks4a : Bytes → Option (Bytes × ℕ)
  | 0x04 :: 0x01 :: high :: low :: 0x00 :: 0x00 :: 0x00 :: 0x01 :: 0x00 :: rest =>
    let host := rest.takeWhile (· ≠ 0)
    if rest.drop host.length = [0x00] then some (host, high.toNat * 256 + low.toNat) else none
  | _ => none

/-- Through a SOCKS server: an error with nothing written, or a request for what was typed. -/
def DestinationSurvives (usesocks : Bytes) (serverad port : List UInt16) : Prop :=
  let address := addressOf (addressMessage (serverAddress serverad port))
  dialsDirectly usesocks address = false → ∀ conn : Conn, conn.writable = true →
    ∃ err conn', socksConnect (some conn) address = .ok (err, some conn') ∧
      (err.isSome ∧ conn'.written = conn.written ∨
        ∃ request host number, conn'.written = conn.written ++ request ∧
          decodeSocks4a request = some (host, number) ∧
            typedDestination (serverAddress serverad port) =
              some (host.map UInt8.toUInt16, (number : ℤ)))

example : decodeSocks4a (socksRequest (ascii "host") 8022) = some (ascii "host", 8022) := by decide

/-! Splitting does not depend on the alphabet. -/

theorem idxOf?_map {α β : Type} [DecidableEq α] [DecidableEq β] {f : α → β}
    (hf : Function.Injective f) (l : List α) (c : α) : (l.map f).idxOf? (f c) = l.idxOf? c := by
  unfold List.idxOf?
  rw [List.findIdx?_map]
  congr 1
  funext x
  exact Bool.eq_iff_iff.mpr (by simp [hf.eq_iff])

theorem splitAddress_map {α β : Type} [DecidableEq α] [DecidableEq β] {f : α → β}
    (hf : Function.Injective f) (colon opening closing : α) (address : List α) :
    splitAddress (f colon) (f opening) (f closing) (address.map f) =
      (splitAddress colon opening closing address).map fun (host, port) =>
        (host.map f, port.map f) := by
  have hhead : (address.map f).head? = some (f opening) ↔ address.head? = some opening := by
    cases address with
    | nil => simp
    | cons c rest => simp [hf.eq_iff]
  unfold splitAddress
  rw [← List.map_reverse, idxOf?_map hf, idxOf?_map hf, List.length_map]
  cases address.reverse.idxOf? colon with
  | none => rfl
  | some i =>
    simp only [Option.map_some, Option.bind_eq_bind, Option.bind_some, hhead, ← List.map_take,
      ← List.map_drop, idxOf?_map hf]
    split
    · cases address.idxOf? closing with
      | none => rfl
      | some last =>
        simp only [Option.bind_some]
        split
        · split
          · rfl
          · split <;> rfl
        · rfl
    · split
      · rfl
      · split
        · rfl
        · split <;> rfl

/-- What stands in front of the last place of a letter and behind it. -/
theorem mem_of_lastIndex {α : Type} [DecidableEq α] {l : List α} {c : α} {i : ℕ}
    (h : (l.reverse.idxOf? c).map (fun i => l.length - 1 - i) = some i) {x : α} (hx : x ∈ l) :
    x ∈ l.take i ∨ x = c ∨ x ∈ l.drop (i + 1) := by
  obtain ⟨r, hr, hlast⟩ := Option.map_eq_some_iff.mp h
  obtain ⟨hlt, hc, -⟩ := List.idxOf?_eq_some_iff.mp hr
  rw [List.length_reverse] at hlt
  rw [List.getElem_reverse] at hc
  subst hlast
  rw [← List.take_append_drop (l.length - 1 - r) l,
    List.drop_eq_getElem_cons (show l.length - 1 - r < l.length by omega), hc, List.mem_append,
    List.mem_cons] at hx
  exact hx

/-- The port stands behind the last colon, the host in front of it, in brackets or not. -/
theorem splitAddress_cases {α : Type} [DecidableEq α] {colon opening closing : α}
    {address host port : List α}
    (h : splitAddress colon opening closing address = some (host, port)) :
    ∃ i, (address.reverse.idxOf? colon).map (fun i => address.length - 1 - i) = some i ∧
      port = address.drop (i + 1) ∧
        (host = address.take i ∨ address.head? = some opening ∧ ∃ last,
          address.idxOf? closing = some last ∧ last + 1 = i ∧ host = (address.take last).drop 1) := by
  unfold splitAddress at h
  obtain ⟨i, hi, h⟩ := Option.bind_eq_some_iff.mp h
  refine ⟨i, hi, ?_⟩
  by_cases hopening : address.head? = some opening
  · simp only [if_pos hopening] at h
    obtain ⟨last, hlast, h⟩ := Option.bind_eq_some_iff.mp h
    by_cases hnext : last + 1 = i
    · rw [if_pos hnext, Option.bind_eq_bind, Option.bind_some] at h
      dsimp only at h
      split_ifs at h
      cases h
      exact ⟨rfl, .inr ⟨hopening, last, hlast, hnext, rfl⟩⟩
    · rw [if_neg hnext] at h
      cases h
  · simp only [if_neg hopening] at h
    split_ifs at h
    · cases h
    · rw [Option.bind_eq_bind, Option.bind_some] at h
      dsimp only at h
      split_ifs at h
      cases h
      exact ⟨rfl, .inl rfl⟩

/-- What is split is the host, the port and the marks between them. -/
theorem splitAddress_mem {α : Type} [DecidableEq α] {colon opening closing : α}
    {address host port : List α}
    (h : splitAddress colon opening closing address = some (host, port)) :
    ∀ c ∈ address, c ∈ host ∨ c ∈ port ∨ c = colon ∨ c = opening ∨ c = closing := by
  intro c hc
  obtain ⟨i, hi, rfl, hhost⟩ := splitAddress_cases h
  rcases mem_of_lastIndex hi hc with htake | hcolon | hport
  · rcases hhost with rfl | ⟨hopening, last, hlast, rfl, rfl⟩
    · exact .inl htake
    · obtain ⟨hlt, hclosing, -⟩ := List.idxOf?_eq_some_iff.mp hlast
      rw [List.take_succ_eq_append_getElem hlt, hclosing, List.mem_append, List.mem_singleton] at htake
      rcases htake with hfront | hmark
      · cases address with
        | nil => contradiction
        | cons first rest =>
          have hfirst : first = opening := Option.some.inj hopening
          cases last with
          | zero => contradiction
          | succ last =>
            rw [List.take_succ_cons, List.mem_cons] at hfront
            rcases hfront with hfirst' | hhost
            · exact .inr (.inr (.inr (.inl (hfirst'.trans hfirst))))
            · exact .inl hhost
      · exact .inr (.inr (.inr (.inr hmark)))
  · exact .inr (.inr (.inl hcolon))
  · exact .inr (.inl hport)

/-! The typed address and its low bytes. -/

theorem toUInt16_injective : Function.Injective UInt8.toUInt16 := by
  intro a b h
  have htoNat := congrArg UInt16.toNat h
  rw [UInt8.toNat_toUInt16, UInt8.toNat_toUInt16] at htoNat
  exact UInt8.toNat.inj htoNat

theorem toUInt16_toUInt8 {c : UInt16} (h : c < 0x100) : c.toUInt8.toUInt16 = c := by
  apply UInt16.toNat.inj
  have hlt : c.toNat < 256 := h
  rw [UInt8.toNat_toUInt16, UInt16.toNat_toUInt8, Nat.mod_eq_of_lt hlt]

theorem toUInt16_lt (b : UInt8) : b.toUInt16 < 0x100 := by
  rw [UInt16.lt_iff_toNat_lt, UInt8.toNat_toUInt16]
  exact b.toNat_lt

theorem map_toUInt8_toUInt16 {address : List UInt16} (h : ∀ c ∈ address, c < 0x100) :
    (address.map UInt16.toUInt8).map UInt8.toUInt16 = address := by
  induction address with
  | nil => rfl
  | cons c rest ih =>
    rw [List.map_cons, List.map_cons, toUInt16_toUInt8 (h c List.mem_cons_self),
      ih fun d hd => h d (List.mem_cons_of_mem c hd)]

theorem map_toUInt16_toUInt8 (bytes : Bytes) :
    (bytes.map UInt8.toUInt16).map UInt16.toUInt8 = bytes := by
  rw [List.map_map]
  exact (List.map_congr_left fun b _ => UInt8.toUInt8_toUInt16 b).trans (List.map_id bytes)

theorem typedPort_map (bytes : Bytes) : typedPort (bytes.map UInt8.toUInt16) = atoi bytes := by
  have hall : (bytes.map UInt8.toUInt16).all (· < 0x100) = true := by
    rw [List.all_eq_true]
    intro c hc
    obtain ⟨b, -, rfl⟩ := List.mem_map.mp hc
    exact decide_eq_true (toUInt16_lt b)
  unfold typedPort
  rw [if_pos hall, map_toUInt16_toUInt8]

/-- An address of single bytes is split as the proxy splits it. -/
theorem typedDestination_bytes {address : List UInt16} (h : ∀ c ∈ address, c < 0x100)
    {host portstr : Bytes} {port : ℤ}
    (hsplit : splitHostPort (address.map UInt16.toUInt8) = some (host, portstr))
    (hatoi : atoi portstr = some port) :
    typedDestination address = some (host.map UInt8.toUInt16, port) := by
  have htyped : splitAddress 0x3a 0x5b 0x5d address =
      some (host.map UInt8.toUInt16, portstr.map UInt8.toUInt16) := by
    have hmap := splitAddress_map toUInt16_injective 0x3a 0x5b 0x5d (address.map UInt16.toUInt8)
    rw [map_toUInt8_toUInt16 h, ← splitHostPort_eq, hsplit] at hmap
    exact hmap
  unfold typedDestination
  rw [htyped, Option.bind_eq_bind, Option.bind_some]
  dsimp only
  rw [typedPort_map, hatoi]
  rfl

/-- A destination of single bytes is that of an address of single bytes. -/
theorem lt_of_typedDestination {address : List UInt16} {host : Bytes} {port : ℤ}
    (h : typedDestination address = some (host.map UInt8.toUInt16, port)) :
    ∀ c ∈ address, c < 0x100 := by
  obtain ⟨⟨front, portstr⟩, hsplit, hrest⟩ := Option.bind_eq_some_iff.mp h
  obtain ⟨number, hnumber, heq⟩ := Option.bind_eq_some_iff.mp hrest
  obtain ⟨hhost, -⟩ := Prod.mk.inj (Option.some.inj heq)
  have hport : portstr.all (· < 0x100) = true := by
    by_contra hnot
    unfold typedPort at hnumber
    rw [if_neg hnot] at hnumber
    contradiction
  intro c hc
  rcases splitAddress_mem hsplit c hc with hfront | hback | rfl | rfl | rfl
  · rw [hhost] at hfront
    obtain ⟨b, -, rfl⟩ := List.mem_map.mp hfront
    exact toUInt16_lt b
  · exact of_decide_eq_true (List.all_eq_true.mp hport c hback)
  · decide
  · decide
  · decide

/-! The frame. -/

theorem read_keeps {conn next : Conn} {size : ℕ} {data : List Octet}
    (h : conn.read size = some (data, next)) :
    next.written = conn.written ∧ next.writable = conn.writable := by
  unfold Conn.read at h
  split at h
  · cases h
  · split at h
    · cases h
      exact ⟨rfl, rfl⟩
    · cases h
      exact ⟨rfl, rfl⟩

theorem addressOf_addressMessage (address : List UInt16) :
    addressOf (addressMessage address) = address.map UInt16.toUInt8 := by
  unfold addressOf addressMessage
  rw [List.length_append, List.length_singleton, Nat.add_sub_cancel]
  exact List.take_left' rfl

theorem toNat_low {n : ℤ} (h : 0 ≤ n) (hlt : n < 256) : n.toNat.toUInt8.toNat = n.toNat := by
  rw [Nat.toUInt8_eq, UInt8.toNat_ofNat']
  exact Nat.mod_eq_of_lt (by omega)

/-- A host is read up to its first zero, a port modulo its 16 bits. -/
theorem decodeSocks4a_socksRequest (host : Bytes) (port : ℤ) :
    decodeSocks4a (socksRequest host port) =
      if 0 ∈ host then none else some (host, (port % 2 ^ 16).toNat) := by
  have hframe : decodeSocks4a (socksRequest host port) =
      if (host ++ [0]).drop ((host ++ [0]).takeWhile (· ≠ 0)).length = [0] then
        some ((host ++ [0]).takeWhile (· ≠ 0), (port / 256 % 256).toNat.toUInt8.toNat * 256 +
          (port % 256).toNat.toUInt8.toNat)
      else none := rfl
  rw [hframe, toNat_low (by omega) (by omega), toNat_low (by omega) (by omega)]
  by_cases hzero : 0 ∈ host
  · rw [if_pos hzero, if_neg]
    intro hdrop
    have hlength := congrArg List.length hdrop
    rw [List.length_drop, List.length_append, List.length_singleton] at hlength
    have hprefix : (host ++ [0]).takeWhile (· ≠ 0) <+: host ++ [0] := List.takeWhile_prefix _
    have htake : (host ++ [0]).takeWhile (· ≠ 0) = host := by
      have hsame : ((host ++ [0]).takeWhile (· ≠ 0)).length = host.length := by omega
      rw [List.prefix_iff_eq_take.mp hprefix, hsame]
      exact List.take_left
    rw [← htake] at hzero
    have hne := List.mem_takeWhile_imp hzero
    contradiction
  · have htake : (host ++ [0]).takeWhile (· ≠ 0) = host := by
      rw [List.takeWhile_append_of_pos]
      · simp
      · intro b hb
        rw [decide_eq_true_eq]
        rintro rfl
        exact hzero hb
    rw [if_neg hzero, htake, List.drop_left, if_pos rfl]
    congr 2
    omega

/-- The request is what the connection has been given. -/
theorem socksConnect_written {address host portstr : Bytes} {port : ℤ} {conn : Conn}
    (hsplit : splitHostPort address = some (host, portstr)) (hatoi : atoi portstr = some port)
    (hwritable : conn.writable = true) :
    ∃ err conn', socksConnect (some conn) address = .ok (err, some conn') ∧
      conn'.written = conn.written ++ socksRequest host port := by
  have hgetD : (splitHostPort address).getD ([], []) = (host, portstr) := by
    rw [hsplit, Option.getD_some]
  rw [socksConnect_some hgetD hatoi]
  cases hread : conn.read 8 with
  | none => exact ⟨_, _, rfl, conn.write_written _ hwritable⟩
  | some found =>
    obtain ⟨data, next⟩ := found
    obtain ⟨hwritten, hnext⟩ := read_keeps hread
    refine ⟨_, _, rfl, ?_⟩
    rw [next.write_written _ (hnext.trans hwritable), hwritten]

theorem exists_of_portParses {address : Bytes} (h : portParses address = true) :
    ∃ host portstr number, splitHostPort address = some (host, portstr) ∧
      atoi portstr = some number := by
  unfold portParses at h
  cases hsplit : splitHostPort address with
  | none =>
    rw [hsplit] at h
    contradiction
  | some parts =>
    rw [hsplit, Option.getD_some] at h
    obtain ⟨number, hatoi⟩ := Option.isSome_iff_exists.mp h
    exact ⟨parts.1, parts.2, number, rfl, hatoi⟩

/-- What a request that survives has not cut off. -/
theorem DestinationSurvives.fits {usesocks : Bytes} {serverad port : List UInt16}
    (h : DestinationSurvives usesocks serverad port)
    (hsocks : dialsDirectly usesocks
      (addressOf (addressMessage (serverAddress serverad port))) = false)
    {host portstr : Bytes} {number : ℤ}
    (hsplit : splitHostPort (addressOf (addressMessage (serverAddress serverad port))) =
      some (host, portstr)) (hatoi : atoi portstr = some number) :
    (∀ c ∈ serverAddress serverad port, c < 0x100) ∧ 0 ∉ host ∧ 0 ≤ number ∧ number < 2 ^ 16 := by
  obtain ⟨err, conn', hconnect, hwritten⟩ := socksConnect_written hsplit hatoi
    (show Conn.writable ⟨[], [], true⟩ = true from rfl)
  obtain ⟨err', conn'', hconnect', hcase⟩ := h hsocks ⟨[], [], true⟩ rfl
  rw [hconnect] at hconnect'
  cases hconnect'
  rw [hwritten, List.nil_append] at hcase
  rcases hcase with ⟨-, hnone⟩ | ⟨request, host', number', hrequest, hdecode, htyped⟩
  · cases hnone
  · rw [List.nil_append] at hrequest
    rw [← hrequest, decodeSocks4a_socksRequest] at hdecode
    split_ifs at hdecode with hzero
    cases hdecode
    have hlow := lt_of_typedDestination htyped
    rw [addressOf_addressMessage] at hsplit
    rw [typedDestination_bytes hlow hsplit hatoi] at htyped
    obtain ⟨-, hnumber⟩ := Prod.mk.inj (Option.some.inj htyped)
    exact ⟨hlow, hzero, by omega, by omega⟩

/-- The destination survives exactly where no SOCKS server is asked, where the bytes have no port,
or where every character is a single byte, the host has no zero and the port has 16 bits. -/
theorem destinationSurvives_iff (usesocks : Bytes) (serverad port : List UInt16) :
    DestinationSurvives usesocks serverad port ↔
      (dialsDirectly usesocks (addressOf (addressMessage (serverAddress serverad port))) = false →
        ∀ host portstr number,
          splitHostPort (addressOf (addressMessage (serverAddress serverad port))) =
              some (host, portstr) → atoi portstr = some number →
            (∀ c ∈ serverAddress serverad port, c < 0x100) ∧ 0 ∉ host ∧
              0 ≤ number ∧ number < 2 ^ 16) := by
  constructor
  · exact fun h hsocks host portstr number hsplit hatoi => h.fits hsocks hsplit hatoi
  · intro hfits hsocks conn hwritable
    cases hport : portParses (addressOf (addressMessage (serverAddress serverad port))) with
    | false => exact ⟨_, _, socksConnect_unparsed hport _, .inl ⟨rfl, rfl⟩⟩
    | true =>
      obtain ⟨host, portstr, number, hsplit, hatoi⟩ := exists_of_portParses hport
      obtain ⟨hlow, hzero, hnonneg, hlt⟩ := hfits hsocks host portstr number hsplit hatoi
      obtain ⟨err, conn', hconnect, hwritten⟩ := socksConnect_written hsplit hatoi hwritable
      rw [addressOf_addressMessage] at hsplit
      refine ⟨err, conn', hconnect, .inr ⟨_, host, number.toNat, hwritten, ?_, ?_⟩⟩
      · rw [decodeSocks4a_socksRequest, if_neg hzero, Int.emod_eq_of_lt hnonneg hlt]
      · rw [typedDestination_bytes hlow hsplit hatoi, Int.toNat_of_nonneg hnonneg]

/-- Port 70000 becomes 4464 on the way. -/
theorem not_destinationSurvives_port :
    ¬ DestinationSurvives (ascii "tor:9050") [0x68] [0x37, 0x30, 0x30, 0x30, 0x30] := by
  intro hsurvives
  have hsplit : splitHostPort (ascii "h:70000") = some (ascii "h", ascii "70000") := by decide
  have hatoi : atoi (ascii "70000") = some 70000 := by decide
  have hfits := hsurvives.fits (by decide) hsplit hatoi
  exact absurd hfits.2.2.2 (by decide)

end Jterm.Proxy
