import Jterm.Ssh.PacketRead

/-!
KEXINIT (kex.c): the lists of methods that a session offers, and the choice of the methods
from those of the server. The server's lists are searched where they lie in the packet, so
what is behind a list can be read; the end of the list of bytes stands for a zero.
-/
namespace Jterm.Ssh.Kex

open Transport

abbrev Name := List UInt8

def nameOf (s : String) : Name := s.toList.map fun c => c.toNat.toUInt8

def comma : UInt8 := 44

/-- LIBSSH2_KEX_METHOD: its name and the two flags for host keys. -/
structure KexMethod where
  name : Name
  reqEncHostkey : Bool
  reqSignHostkey : Bool
  deriving DecidableEq, Repr

/-- LIBSSH2_HOSTKEY_METHOD: its name and whether it has the two functions. -/
structure HostkeyMethod where
  name : Name
  encrypt : Bool
  sigVerify : Bool
  deriving DecidableEq, Repr

/-- The methods that libssh2 has been built with, in order of preference. -/
structure Supported where
  kex : List KexMethod
  hostkey : List HostkeyMethod
  crypt : List Name
  mac : List Name
  comp : List Name
  deriving DecidableEq, Repr

/-- `libssh2_endpoint_data`: preferences that replace the lists, and the methods agreed on. -/
structure EndpointData where
  cryptPrefs : Option (List UInt8)
  macPrefs : Option (List UInt8)
  compPrefs : Option (List UInt8)
  langPrefs : Option (List UInt8)
  crypt : Option Name
  mac : Option Name
  comp : Option Name
  deriving DecidableEq, Repr

structure Session where
  kexPrefs : Option (List UInt8)
  hostkeyPrefs : Option (List UInt8)
  localData : EndpointData
  remoteData : EndpointData
  kex : Option KexMethod
  hostkey : Option HostkeyMethod
  burnOptimisticKexinit : UInt8
  deriving DecidableEq, Repr

/-! What a session offers. -/

def kexMethodStrlen (names : List Name) : ℕ :=
  match names with
  | [] => 0
  | names => (names.map fun name => name.length + 1).sum - 1

/-- A comma is written behind every name, the last one too; that one is overwritten by what
follows the list. -/
def kexMethodList (names : List Name) : List UInt8 :=
  htonu32 (kexMethodStrlen names) ++
    (names.flatMap fun name => name ++ [comma]).take (kexMethodStrlen names)

/-- LIBSSH2_METHOD_PREFS_STR -/
def methodPrefsStr (prefs : Option (List UInt8)) (names : List Name) : List UInt8 :=
  match prefs with
  | some prefs => htonu32 prefs.length ++ prefs
  | none => kexMethodList names

/-- The SSH_MSG_KEXINIT that `kexinit` sends. -/
def kexinit (sup : Supported) (s : Session) (cookie : List UInt8) : List UInt8 :=
  20 :: (cookie ++
    methodPrefsStr s.kexPrefs (sup.kex.map (·.name)) ++
    methodPrefsStr s.hostkeyPrefs (sup.hostkey.map (·.name)) ++
    methodPrefsStr s.localData.cryptPrefs sup.crypt ++
    methodPrefsStr s.remoteData.cryptPrefs sup.crypt ++
    methodPrefsStr s.localData.macPrefs sup.mac ++
    methodPrefsStr s.remoteData.macPrefs sup.mac ++
    methodPrefsStr s.localData.compPrefs sup.comp ++
    methodPrefsStr s.remoteData.compPrefs sup.comp ++
    methodPrefsStr s.localData.langPrefs [] ++
    methodPrefsStr s.remoteData.langPrefs [] ++ 0 :: htonu32 0)

/-! The choice from what the server offers. -/

/-- The needle is here in the list, and a comma or the end of the list behind it. -/
def atName (len : ℕ) (needle : Name) (pos : ℕ) (s : List UInt8) : Bool :=
  s.take needle.length == needle && (pos + needle.length == len || s.getD needle.length 0 == comma)

/-- The search for commas from an offset on; strchr stops at a zero. The rest of the list is
computed as an unsigned long, also where a comma behind the list was found. -/
def instrLoop (len : ℕ) (needle : Name) : ℕ → List UInt8 → Option ℕ
  | _, [] => none
  | pos, c :: s =>
    if c = comma then
      if toSize (len - pos) ≤ needle.length then none
      else if atName len needle (pos + 1) s then some (pos + 1)
      else instrLoop len needle (pos + 1) s
    else if c = 0 then none
    else instrLoop len needle (pos + 1) s

/-- `kex_agree_instr`: the offset of the needle. -/
def kexAgreeInstr (haystack : List UInt8) (len : ℕ) (needle : Name) : Option ℕ :=
  if len < needle.length then none
  else if atName len needle 0 haystack then some 0
  else instrLoop len needle 0 haystack

/-- The names in a string of preferences; one that ends with a comma has no more. -/
def prefNames (prefs : List UInt8) : List Name :=
  let names := prefs.splitOn comma
  if names.getLast? = some [] then names.dropLast else names

/-- The names that are tried, with the methods of these names. -/
def candidates {α : Type*} (prefs : Option (List UInt8)) (methods : List α) (name : α → Name) :
    List (Name × Option α) :=
  match prefs with
  | some prefs => (prefNames prefs).map fun pref => (pref, methods.find? (name · == pref))
  | none => methods.map fun method => (name method, some method)

/-- The loops of the kex_agree functions: the first name that the server has and whose method
suits. A name without a method ends the search. -/
def kexAgree {α β : Type*} (server : ℕ × List UInt8) (suits : α → ℕ → Option β) :
    List (Name × Option α) → Option β
  | [] => none
  | (name, method) :: rest =>
    match kexAgreeInstr server.2 server.1 name with
    | none => kexAgree server suits rest
    | some pos =>
      match method with
      | none => none
      | some method =>
        match suits method pos with
        | some found => some found
        | none => kexAgree server suits rest

/-- Whether the host key does what the key exchange needs. -/
def suitsKex (kex : KexMethod) (hostkey : HostkeyMethod) : Bool :=
  (!kex.reqEncHostkey || hostkey.encrypt) && (!kex.reqSignHostkey || hostkey.sigVerify)

def kexAgreeHostkey (sup : Supported) (s : Session) (kex : KexMethod) (hostkey : ℕ × List UInt8) :
    Option HostkeyMethod :=
  kexAgree hostkey (fun method _ => if suitsKex kex method then some method else none)
    (candidates s.hostkeyPrefs sup.hostkey (·.name))

/-- The key exchange and the host key, and whether the server prefers this key exchange. -/
def kexAgreeKexHostkey (sup : Supported) (s : Session) (kex hostkey : ℕ × List UInt8) :
    Option (KexMethod × HostkeyMethod × Bool) :=
  kexAgree kex (fun method pos =>
    (kexAgreeHostkey sup s method hostkey).map fun key => (method, key, pos == 0))
    (candidates s.kexPrefs sup.kex (·.name))

/-- kex_agree_crypt, kex_agree_mac and kex_agree_comp. -/
def kexAgreeName (prefs : Option (List UInt8)) (names : List Name) (server : ℕ × List UInt8) :
    Option Name :=
  kexAgree server (fun name _ => some name) (candidates prefs names id)

/-- A string of the packet, with all that is behind it. -/
def stringAt (data : List UInt8) (pos : ℕ) : ℕ × List UInt8 :=
  (ntohu32 (data.drop pos), data.drop (pos + 4))

def nextString (data : List UInt8) (pos : ℕ) : ℕ := pos + 4 + (stringAt data pos).1

/-- The methods of one kind for both directions, from the strings at `pos` and behind it. -/
def agreeBoth (agree : EndpointData → ℕ × List UInt8 → Option Name)
    (set : EndpointData → Name → EndpointData) (s : Session) (cs sc : ℕ × List UInt8) :
    Bool × Session :=
  match agree s.localData cs with
  | none => (false, s)
  | some name =>
    let s := { s with localData := set s.localData name }
    match agree s.remoteData sc with
    | none => (false, s)
    | some name => (true, { s with remoteData := set s.remoteData name })

/-- `kex_agree_methods`: whether methods of all kinds were found. `data` begins with the packet,
of `dataLen` bytes. The byte taken for first_kex_packet_follows is the one where `s` is left:
the first of the length of comp_sc. -/
def kexAgreeMethods (sup : Supported) (s : Session) (data : List UInt8) (dataLen : ℕ) :
    Bool × Session :=
  let kexPos := 1 + 16
  let hostkeyPos := nextString data kexPos
  let cryptCsPos := nextString data hostkeyPos
  let cryptScPos := nextString data cryptCsPos
  let macCsPos := nextString data cryptScPos
  let macScPos := nextString data macCsPos
  let compCsPos := nextString data macScPos
  let compScPos := nextString data compCsPos
  let s := { s with burnOptimisticKexinit := data.getD compScPos 0 }
  if dataLen < compScPos + 1 then (false, s)
  else
    match kexAgreeKexHostkey sup s (stringAt data kexPos) (stringAt data hostkeyPos) with
    | none => (false, s)
    | some (kex, hostkey, first) =>
      let s := { s with
        kex := some kex
        hostkey := some hostkey
        burnOptimisticKexinit :=
          if s.burnOptimisticKexinit ≠ 0 ∧ first then 0 else s.burnOptimisticKexinit }
      let crypt := agreeBoth (fun e => kexAgreeName e.cryptPrefs sup.crypt)
        (fun e name => { e with crypt := some name }) s
        (stringAt data cryptCsPos) (stringAt data cryptScPos)
      if !crypt.1 then crypt
      else
        let mac := agreeBoth (fun e => kexAgreeName e.macPrefs sup.mac)
          (fun e name => { e with mac := some name }) crypt.2
          (stringAt data macCsPos) (stringAt data macScPos)
        if !mac.1 then mac
        else
          agreeBoth (fun e => kexAgreeName e.compPrefs sup.comp)
            (fun e name => { e with comp := some name }) mac.2
            (stringAt data compCsPos) (stringAt data compScPos)

end Jterm.Ssh.Kex
