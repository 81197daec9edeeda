import Jterm.Lib.Runs
import Jterm.Page.Emsocket
import Jterm.Proxy.Main

/-!
From the page's first timer to the proxy's filter. The timers queue_connect and
queue_handshake drive libssh2, whose first send is its banner; the WebSocket opens
and closes between them at any time. Whatever the order, the messages are the
address and then the blocks of the successful sends, the banner first, which is
what `forwardws` waits for.
-/
namespace Jterm.Page

open Runs GoNet Proxy

/-- The states of session_startup and banner_send that the banner depends on; `sent`
stands for every state in which the banner is out. -/
inductive NbState
  | idle
  | created
  | sent
  deriving DecidableEq, Repr

structure Session where
  startupState : NbState
  bannerTxRxState : NbState
  bannerTxRxTotalSend : ℕ
  deriving DecidableEq, Repr

/-- Which of the page's timers is queued. After `phase2` come the authentication, the
channel requests and the session itself. -/
inductive Phase
  | connect
  | handshake
  | phase2
  | stopped
  deriving DecidableEq, Repr

/-- The page; `sends` lists every `send()` of libssh2 with what it returned. -/
structure Client where
  em : Emsocket
  session : Session
  phase : Phase
  c : ℕ
  sends : List (Bytes × ℤ)
  deriving DecidableEq, Repr

def initialClient (serverAddress : List UInt16) : Client :=
  ⟨.initial serverAddress, ⟨.idle, .idle, 0⟩, .connect, 0, []⟩

def libssh2ErrorEagain : ℤ := -37
def libssh2ErrorSocketRecv : ℤ := -43

/-- `LIBSSH2_SSH_DEFAULT_BANNER_WITH_CRLF` -/
def defaultBanner : Bytes := ascii "SSH-2.0-libssh2_1.4.4_DEV\r\n"

/-- `send()` and `_libssh2_send`: errno carries the error number back and forth. -/
def Client.send (page : Client) (buffer : Bytes) : Option (ℤ × Client) :=
  (jssSend page.em buffer).map fun (ret, em) =>
    (ret, { page with em := em, sends := page.sends ++ [(buffer, ret)] })

/-- What else of libssh2 sends; it goes on or gives up as it sees fit. -/
def Client.sendAll (page : Client) : List Bytes → Option Client
  | [] => some page
  | buffer :: rest => (page.send buffer).bind fun (_, page) => page.sendAll rest

def bannerSend (page : Client) : Option (ℤ × Client) :=
  let session := page.session
  let remaining := defaultBanner.drop session.bannerTxRxTotalSend
  (page.send remaining).map fun (ret, page) =>
    if ret ≠ remaining.length then
      if 0 ≤ ret ∨ ret = eagain then
        (libssh2ErrorEagain, { page with session := { session with
          bannerTxRxState := .created
          bannerTxRxTotalSend := session.bannerTxRxTotalSend + ret.toNat } })
      else (libssh2ErrorSocketRecv, { page with session := { session with
          bannerTxRxState := .idle, bannerTxRxTotalSend := 0 } })
    else (0, { page with session := { session with
          bannerTxRxState := .idle, bannerTxRxTotalSend := 0 } })

/-- session_startup from the banner on: it sends `blocks` and ends with `rc`. -/
def startupRest (page : Client) (blocks : List Bytes) (rc : ℤ) : Option (ℤ × Client) :=
  (page.sendAll blocks).map fun page =>
    (rc, if rc = 0 then { page with session := { page.session with startupState := .idle } }
      else page)

def sessionStartup (page : Client) (blocks : List Bytes) (rc : ℤ) : Option (ℤ × Client) :=
  if page.session.startupState = .sent then startupRest page blocks rc
  else
    (bannerSend { page with session := { page.session with startupState := .created } }).bind
      fun (ret, page) =>
        if ret ≠ 0 then some (ret, page)
        else
          startupRest { page with session := { page.session with
            startupState := .sent, bannerTxRxState := .idle } } blocks rc

/-- The timer of queue_connect; libssh2_init may fail, `jss_connect` does not. -/
def connectPoll (page : Client) (initFails : Bool) : Client :=
  if initFails then
    if page.c < 20 then
      { page with c := page.c + 1, phase := if page.em.jssClosed then .stopped else .connect }
    else { page with phase := .stopped }
  else
    { page with
      em := (jssConnect page.em).2
      c := 0
      phase := if page.em.jssClosed then .stopped else .handshake }

/-- The timer of queue_handshake. -/
def handshakePoll (page : Client) (blocks : List Bytes) (rc : ℤ) : Option Client :=
  (sessionStartup page blocks rc).map fun (result, page) =>
    if result ≠ 0 then
      if page.em.jssClosed then { page with phase := .stopped }
      else if page.c < 100 then { page with c := page.c + 1, phase := .handshake }
      else { page with phase := .stopped }
    else { page with c := 0, phase := if page.em.jssClosed then .stopped else .phase2 }

/-- What happens to the page, one JavaScript turn each. -/
inductive Event
  | connectTimer (initFails : Bool)
  | handshakeTimer (blocks : List Bytes) (rc : ℤ)
  | sshCall (blocks : List Bytes)
  | socketOpens
  | socketCloses
  | socketClosed
  | unload
  deriving DecidableEq, Repr

/-- A timer that is not queued and a change the WebSocket cannot make do nothing; a
thrown exception ends the turn. -/
def step (page : Client) : Event → Client
  | .connectTimer initFails =>
      if page.phase = .connect then connectPoll page initFails else page
  | .handshakeTimer blocks rc =>
      if page.phase = .handshake then (handshakePoll page blocks rc).getD page else page
  | .sshCall blocks => if page.phase = .phase2 then (page.sendAll blocks).getD page else page
  | .socketOpens =>
      if page.em.serversocket = some .connecting then
        { page with em := onopen { page.em with serversocket := some .opened } }
      else page
  | .socketCloses =>
      if page.em.serversocket = some .connecting ∨ page.em.serversocket = some .opened then
        { page with em := { page.em with serversocket := some .closing } }
      else page
  | .socketClosed =>
      if page.em.serversocket = none then page
      else { page with em := onclose { page.em with serversocket := some .closed } }
  | .unload => { page with em := (jssClose page.em).getD page.em }

/-- The blocks of the sends that reported success. -/
def sentBlocks (sends : List (Bytes × ℤ)) : List Bytes :=
  sends.filterMap fun (buffer, ret) => if 0 ≤ ret then some buffer else none

/-- What the WebSocket was given, for the state it is in. -/
def SocketInv (serverAddress : List UInt16) (page : Client) : Prop :=
  page.em.serverAddress = serverAddress ∧
    match page.em.serversocket with
    | none => page.em.sent = [] ∧ sentBlocks page.sends = [] ∧
        page.phase ≠ .handshake ∧ page.phase ≠ .phase2
    | some .connecting => page.em.sent = [] ∧ sentBlocks page.sends = []
    | some .opened => page.em.sent = addressMessage serverAddress :: sentBlocks page.sends
    | some _ => page.em.sent = [] ∧ sentBlocks page.sends = [] ∨
        page.em.sent = addressMessage serverAddress :: sentBlocks page.sends

/-- The first successful send is the whole banner. -/
def Greeted (page : Client) : Prop := (sentBlocks page.sends).head? = some defaultBanner

/-- No other send comes before the banner is out. -/
def BannerInv (page : Client) : Prop :=
  Greeted page ∨ sentBlocks page.sends = [] ∧ page.session.startupState ≠ .sent ∧
    page.session.bannerTxRxTotalSend = 0 ∧ page.phase ≠ .phase2

theorem sentBlocks_append (sends : List (Bytes × ℤ)) (buffer : Bytes) (ret : ℤ) :
    sentBlocks (sends ++ [(buffer, ret)]) =
      sentBlocks sends ++ if 0 ≤ ret then [buffer] else [] := by
  by_cases h : 0 ≤ ret <;> simp [sentBlocks, List.filterMap_append, h]

/-- One send: what it returned decides what was added, nothing else changes. -/
theorem send_cases {page page' : Client} {buffer : Bytes} {ret : ℤ}
    (h : page.send buffer = some (ret, page')) :
    page'.session = page.session ∧ page'.phase = page.phase ∧ page'.c = page.c ∧
      page'.em.serversocket = page.em.serversocket ∧
      page'.em.serverAddress = page.em.serverAddress ∧
      (page.em.serversocket = some .opened ∧ ret = buffer.length ∧
          page'.em.sent = page.em.sent ++ [buffer] ∧
          sentBlocks page'.sends = sentBlocks page.sends ++ [buffer] ∨
        (ret = eagain ∨ ret = connectionClosed) ∧ page'.em.sent = page.em.sent ∧
          sentBlocks page'.sends = sentBlocks page.sends) := by
  obtain ⟨⟨ret', em⟩, hjss, heq⟩ := Option.map_eq_some_iff.mp h
  obtain ⟨rfl, rfl⟩ := Prod.mk.inj heq
  obtain ⟨hsocket, haddress, hcase⟩ := jssSend_cases hjss
  refine ⟨rfl, rfl, rfl, hsocket, haddress, ?_⟩
  rcases hcase with ⟨hopen, hret, hsent⟩ | ⟨hret, hsent⟩
  · left
    refine ⟨hopen, hret, hsent, ?_⟩
    rw [sentBlocks_append, if_pos (by omega)]
  · right
    have hneg : ¬ 0 ≤ ret' := by
      rcases hret with hret | hret <;> simp [hret, eagain, connectionClosed]
    refine ⟨hret, hsent, ?_⟩
    rw [sentBlocks_append, if_neg hneg, List.append_nil]

/-- Socket and sends alone decide the socket invariant. -/
theorem socketInv_congr {serverAddress : List UInt16} (page : Client) {page' : Client}
    (hem : page'.em = page.em)
    (hsends : page'.sends = page.sends) (hsocket : page.em.serversocket ≠ none)
    (h : SocketInv serverAddress page) : SocketInv serverAddress page' := by
  unfold SocketInv at h ⊢
  rw [hem, hsends]
  refine ⟨h.1, ?_⟩
  cases hstate : page.em.serversocket with
  | none => exact absurd hstate hsocket
  | some readyState =>
    have hrest := h.2
    rw [hstate] at hrest
    cases readyState <;> exact hrest

theorem send_socketInv {serverAddress : List UInt16} {page page' : Client} {buffer : Bytes} {ret : ℤ}
    (h : page.send buffer = some (ret, page')) (hinv : SocketInv serverAddress page) :
    SocketInv serverAddress page' := by
  obtain ⟨-, hphase, -, hsocket, haddress, hcase⟩ := send_cases h
  obtain ⟨haddr, hrest⟩ := hinv
  refine ⟨haddress.trans haddr, ?_⟩
  rw [hsocket, hphase]
  rcases hcase with ⟨hopen, -, hsent, hblocks⟩ | ⟨-, hsent, hblocks⟩
  · rw [hopen] at hrest ⊢
    rw [hsent, hblocks]
    simp [show page.em.sent = _ from hrest]
  · rw [hsent, hblocks]
    exact hrest

theorem send_greeted {page page' : Client} {buffer : Bytes} {ret : ℤ}
    (h : page.send buffer = some (ret, page')) (hgreet : Greeted page) : Greeted page' := by
  obtain ⟨-, -, -, -, -, hcase⟩ := send_cases h
  unfold Greeted at hgreet ⊢
  rcases hcase with ⟨-, -, -, hblocks⟩ | ⟨-, -, hblocks⟩
  · rw [hblocks, List.head?_append, hgreet, Option.some_or]
  · rw [hblocks, hgreet]

theorem sendAll_greeted {page page' : Client} {blocks : List Bytes}
    (h : page.sendAll blocks = some page') (hgreet : Greeted page) : Greeted page' := by
  induction blocks generalizing page with
  | nil =>
    cases h
    exact hgreet
  | cons buffer rest ih =>
    obtain ⟨⟨ret, next⟩, hsend, hrest⟩ := Option.bind_eq_some_iff.mp h
    exact ih hrest (send_greeted hsend hgreet)

theorem sendAll_socketInv {serverAddress : List UInt16} {page page' : Client} {blocks : List Bytes}
    (h : page.sendAll blocks = some page') (hinv : SocketInv serverAddress page) :
    SocketInv serverAddress page' ∧ page'.em.serversocket = page.em.serversocket ∧
      page'.phase = page.phase := by
  induction blocks generalizing page with
  | nil =>
    cases h
    exact ⟨hinv, rfl, rfl⟩
  | cons buffer rest ih =>
    obtain ⟨⟨ret, next⟩, hsend, hrest⟩ := Option.bind_eq_some_iff.mp h
    obtain ⟨hnext, hsocket, hphase⟩ := ih hrest (send_socketInv hsend hinv)
    obtain ⟨-, hphase', -, hsocket', -⟩ := send_cases hsend
    exact ⟨hnext, hsocket.trans hsocket', hphase.trans hphase'⟩

/-- The banner goes out whole or not at all; when it does it is the first block. -/
theorem bannerSend_cases {page page' : Client} {rc : ℤ} (h : bannerSend page = some (rc, page'))
    (htotal : page.session.bannerTxRxTotalSend = 0) (hnone : sentBlocks page.sends = []) :
    page'.session.startupState = page.session.startupState ∧ page'.phase = page.phase ∧
      (rc = 0 ∧ Greeted page' ∨
        rc ≠ 0 ∧ sentBlocks page'.sends = [] ∧ page'.session.bannerTxRxTotalSend = 0) := by
  unfold bannerSend at h
  simp only [htotal, List.drop_zero, Nat.zero_add] at h
  obtain ⟨⟨ret, next⟩, hsend, heq⟩ := Option.map_eq_some_iff.mp h
  obtain ⟨hsession, hphase, -, -, -, hcase⟩ := send_cases hsend
  rcases hcase with ⟨-, hret, -, hblocks⟩ | ⟨hret, -, hblocks⟩
  · simp only [hret, ne_eq, not_true_eq_false, if_false] at heq
    obtain ⟨rfl, rfl⟩ := Prod.mk.inj heq
    refine ⟨by simp, hphase, Or.inl ⟨rfl, ?_⟩⟩
    simp [Greeted, hblocks, hnone]
  · have hlen : (defaultBanner.length : ℤ) = 27 := by decide
    rcases hret with rfl | rfl
    · simp only [hlen, eagain] at heq
      obtain ⟨rfl, rfl⟩ := Prod.mk.inj heq
      refine ⟨by simp, hphase, Or.inr ⟨by decide, ?_, by simp⟩⟩
      simp [hblocks, hnone]
    · simp only [hlen, connectionClosed, eagain] at heq
      obtain ⟨rfl, rfl⟩ := Prod.mk.inj heq
      refine ⟨by simp, hphase, Or.inr ⟨by decide, ?_, by simp⟩⟩
      simp [hblocks, hnone]

theorem bannerSend_socketInv {serverAddress : List UInt16} {page page' : Client} {rc : ℤ}
    (h : bannerSend page = some (rc, page')) (hinv : SocketInv serverAddress page)
    (hsocket : page.em.serversocket ≠ none) :
    SocketInv serverAddress page' ∧ page'.em.serversocket ≠ none := by
  obtain ⟨⟨ret, next⟩, hsend, heq⟩ := Option.map_eq_some_iff.mp h
  have hnext : next.em.serversocket ≠ none := by
    rw [(send_cases hsend).2.2.2.1]
    exact hsocket
  have hsame : page'.em = next.em ∧ page'.sends = next.sends := by
    dsimp only at heq
    split at heq
    · split at heq <;> obtain ⟨-, rfl⟩ := Prod.mk.inj heq <;> exact ⟨rfl, rfl⟩
    · obtain ⟨-, rfl⟩ := Prod.mk.inj heq
      exact ⟨rfl, rfl⟩
  refine ⟨socketInv_congr _ hsame.1 hsame.2 hnext (send_socketInv hsend hinv), ?_⟩
  rw [hsame.1]
  exact hnext

theorem bannerSend_greeted {page page' : Client} {rc : ℤ} (h : bannerSend page = some (rc, page'))
    (hgreet : Greeted page) : Greeted page' := by
  obtain ⟨⟨ret, next⟩, hsend, heq⟩ := Option.map_eq_some_iff.mp h
  have hsame : page'.sends = next.sends := by
    dsimp only at heq
    split at heq
    · split at heq <;> obtain ⟨-, rfl⟩ := Prod.mk.inj heq <;> rfl
    · obtain ⟨-, rfl⟩ := Prod.mk.inj heq
      rfl
  unfold Greeted
  rw [hsame]
  exact send_greeted hsend hgreet

theorem startupRest_greeted {page page' : Client} {blocks : List Bytes} {rc ret : ℤ}
    (h : startupRest page blocks rc = some (ret, page')) (hgreet : Greeted page) :
    Greeted page' := by
  obtain ⟨last, hall, heq⟩ := Option.map_eq_some_iff.mp h
  have hlast : Greeted last := sendAll_greeted hall hgreet
  obtain ⟨-, rfl⟩ := Prod.mk.inj heq
  split <;> exact hlast

theorem startupRest_socketInv {serverAddress : List UInt16} {page page' : Client}
    {blocks : List Bytes} {rc ret : ℤ} (h : startupRest page blocks rc = some (ret, page'))
    (hinv : SocketInv serverAddress page) (hsocket : page.em.serversocket ≠ none) :
    SocketInv serverAddress page' ∧ page'.em.serversocket ≠ none := by
  obtain ⟨last, hall, heq⟩ := Option.map_eq_some_iff.mp h
  obtain ⟨hlast, hsame, -⟩ := sendAll_socketInv hall hinv
  rw [← hsame] at hsocket
  obtain ⟨-, rfl⟩ := Prod.mk.inj heq
  split
  · exact ⟨socketInv_congr _ rfl rfl hsocket hlast, hsocket⟩
  · exact ⟨hlast, hsocket⟩

/-- A call of session_startup that succeeds has sent the banner, and one that has
sent anything has sent the banner first. -/
theorem sessionStartup_banner {page page' : Client} {blocks : List Bytes} {rc ret : ℤ}
    (h : sessionStartup page blocks rc = some (ret, page')) (hinv : BannerInv page) :
    (ret = 0 → Greeted page') ∧ (Greeted page' ∨ sentBlocks page'.sends = [] ∧
      page'.session.startupState ≠ .sent ∧ page'.session.bannerTxRxTotalSend = 0) := by
  suffices hcase : Greeted page' ∨ ret ≠ 0 ∧ sentBlocks page'.sends = [] ∧
      page'.session.startupState ≠ .sent ∧ page'.session.bannerTxRxTotalSend = 0 by
    rcases hcase with hgreet | ⟨hne, hrest⟩
    · exact ⟨fun _ => hgreet, Or.inl hgreet⟩
    · exact ⟨fun h0 => absurd h0 hne, Or.inr hrest⟩
  unfold sessionStartup at h
  split at h
  · rename_i hsent
    rcases hinv with hgreet | ⟨-, hne, -⟩
    · exact Or.inl (startupRest_greeted h hgreet)
    · exact absurd hsent hne
  · obtain ⟨⟨rc', next⟩, hbanner, hrest⟩ := Option.bind_eq_some_iff.mp h
    dsimp only at hrest
    rcases hinv with hgreet | ⟨hnone, -, htotal, -⟩
    · have hnext : Greeted next := bannerSend_greeted hbanner hgreet
      left
      split at hrest
      · obtain ⟨-, rfl⟩ := Prod.mk.inj (Option.some.inj hrest)
        exact hnext
      · exact startupRest_greeted hrest hnext
    · obtain ⟨hstate, -, hcase⟩ := bannerSend_cases hbanner htotal hnone
      rcases hcase with ⟨h0, hnext⟩ | ⟨hne, hblocks, htotal'⟩
      · rw [if_neg (not_not.mpr h0)] at hrest
        exact Or.inl (startupRest_greeted hrest hnext)
      · rw [if_pos hne] at hrest
        obtain ⟨rfl, rfl⟩ := Prod.mk.inj (Option.some.inj hrest)
        refine Or.inr ⟨hne, hblocks, ?_, htotal'⟩
        simp [hstate]

theorem sessionStartup_socketInv {serverAddress : List UInt16} {page page' : Client}
    {blocks : List Bytes} {rc ret : ℤ} (h : sessionStartup page blocks rc = some (ret, page'))
    (hinv : SocketInv serverAddress page) (hsocket : page.em.serversocket ≠ none) :
    SocketInv serverAddress page' ∧ page'.em.serversocket ≠ none := by
  unfold sessionStartup at h
  split at h
  · exact startupRest_socketInv h hinv hsocket
  · obtain ⟨⟨rc', next⟩, hbanner, hrest⟩ := Option.bind_eq_some_iff.mp h
    have hcreated : SocketInv serverAddress { page with
        session := { page.session with startupState := .created } } :=
      socketInv_congr page rfl rfl hsocket hinv
    obtain ⟨hnext, hnextSocket⟩ := bannerSend_socketInv hbanner hcreated hsocket
    dsimp only at hrest
    split at hrest
    · obtain ⟨-, rfl⟩ := Prod.mk.inj (Option.some.inj hrest)
      exact ⟨hnext, hnextSocket⟩
    · exact startupRest_socketInv hrest (socketInv_congr _ rfl rfl hnextSocket hnext) hnextSocket

structure Inv (serverAddress : List UInt16) (page : Client) : Prop where
  socket : SocketInv serverAddress page
  banner : BannerInv page
  unconnected : page.phase = .connect → page.em.serversocket = none

theorem inv_initial (serverAddress : List UInt16) :
    Inv serverAddress (initialClient serverAddress) :=
  ⟨by simp [SocketInv, initialClient, Emsocket.initial, sentBlocks],
    Or.inr (by simp [initialClient, sentBlocks]), fun _ => rfl⟩

theorem connectPoll_inv {serverAddress : List UInt16} {page : Client} {initFails : Bool}
    (hphase : page.phase = .connect) (h : Inv serverAddress page) :
    Inv serverAddress (connectPoll page initFails) := by
  have hnone : page.em.serversocket = none := h.unconnected hphase
  have hsocket := h.socket
  have hbanner := h.banner
  simp only [SocketInv, hnone] at hsocket
  obtain ⟨haddr, hsent, hblocks, -⟩ := hsocket
  have hstart : ∀ page' : Client, page'.sends = page.sends → page'.session = page.session →
      page'.phase ≠ .phase2 → BannerInv page' := by
    intro page' hsends hsession hne
    rcases hbanner with hgreet | ⟨-, hstate, htotal, -⟩
    · simp [Greeted, hblocks] at hgreet
    · right
      rw [hsends, hsession]
      exact ⟨hblocks, hstate, htotal, hne⟩
  unfold connectPoll
  cases initFails with
  | true =>
    by_cases hc : page.c < 20
    · cases hclosed : page.em.jssClosed with
      | true => exact ⟨by simp [SocketInv, hc, hnone, haddr, hsent, hblocks],
          hstart _ (by simp [hc]) (by simp [hc]) (by simp [hc]), by simp [hc]⟩
      | false => exact ⟨by simp [SocketInv, hc, hnone, haddr, hsent, hblocks],
          hstart _ (by simp [hc]) (by simp [hc]) (by simp [hc]), by simp [hc, hnone]⟩
    · exact ⟨by simp [SocketInv, hc, hnone, haddr, hsent, hblocks],
        hstart _ (by simp [hc]) (by simp [hc]) (by simp [hc]), by simp [hc]⟩
  | false =>
    cases hclosed : page.em.jssClosed with
    | true => exact ⟨by simp [SocketInv, jssConnect, haddr, hsent, hblocks],
        hstart _ rfl rfl (by simp), by simp⟩
    | false => exact ⟨by simp [SocketInv, jssConnect, haddr, hsent, hblocks],
        hstart _ rfl rfl (by simp), by simp⟩

theorem handshakePoll_inv {serverAddress : List UInt16} {page page' : Client}
    {blocks : List Bytes} {rc : ℤ} (hphase : page.phase = .handshake)
    (hpoll : handshakePoll page blocks rc = some page') (h : Inv serverAddress page) :
    Inv serverAddress page' := by
  have hsocket : page.em.serversocket ≠ none := by
    intro hnone
    have hinv := h.socket
    simp only [SocketInv, hnone] at hinv
    exact hinv.2.2.2.1 hphase
  obtain ⟨⟨ret, next⟩, hstartup, heq⟩ := Option.map_eq_some_iff.mp hpoll
  obtain ⟨hnext, hnextSocket⟩ := sessionStartup_socketInv hstartup h.socket hsocket
  obtain ⟨hdone, hbanner⟩ := sessionStartup_banner hstartup h.banner
  have hinv : ∀ (c : ℕ) (phase : Phase), phase ≠ .connect → (phase = .phase2 → Greeted next) →
      Inv serverAddress { next with c := c, phase := phase } := by
    intro c phase hconnect hphase2
    refine ⟨socketInv_congr next rfl rfl hnextSocket hnext, ?_,
      fun hc => absurd hc hconnect⟩
    rcases hbanner with hgreet | ⟨hblocks, hstate, htotal⟩
    · exact Or.inl hgreet
    · by_cases h2 : phase = .phase2
      · exact Or.inl (hphase2 h2)
      · exact Or.inr ⟨hblocks, hstate, htotal, h2⟩
  dsimp only at heq
  split at heq
  · split at heq
    · exact heq ▸ hinv next.c .stopped (by decide) (by simp)
    · split at heq
      · exact heq ▸ hinv (next.c + 1) .handshake (by decide) (by simp)
      · exact heq ▸ hinv next.c .stopped (by decide) (by simp)
  · rename_i hret
    have hgreet : Greeted next := hdone (not_not.mp hret)
    split at heq
    · exact heq ▸ hinv 0 .stopped (by decide) (by simp)
    · exact heq ▸ hinv 0 .phase2 (by decide) (fun _ => hgreet)

/-- The WebSocket's own changes: no message is added except the address on opening. -/
theorem socketEvent_inv {serverAddress : List UInt16} {page : Client} {em : Emsocket}
    (h : Inv serverAddress page) (hsocket : page.em.serversocket ≠ none)
    (haddr : em.serverAddress = page.em.serverAddress)
    (hcase : page.em.serversocket = some .connecting ∧ em.serversocket = some .opened ∧
        em.sent = page.em.sent ++ [addressMessage page.em.serverAddress] ∨
      em.sent = page.em.sent ∧
        (em.serversocket = some .closing ∨ em.serversocket = some .closed)) :
    Inv serverAddress { page with em := em } := by
  refine ⟨⟨haddr.trans h.socket.1, ?_⟩, h.banner, fun hc => absurd (h.unconnected hc) hsocket⟩
  obtain ⟨haddress, hrest⟩ := h.socket
  rcases hcase with ⟨hconnecting, hopened, hsent⟩ | ⟨hsent, hclosing⟩
  · rw [hconnecting] at hrest
    simp [hopened, hsent, hrest.1, hrest.2, haddress]
  · have hor : page.em.sent = [] ∧ sentBlocks page.sends = [] ∨
        page.em.sent = addressMessage serverAddress :: sentBlocks page.sends := by
      cases hstate : page.em.serversocket with
      | none => exact absurd hstate hsocket
      | some readyState =>
        rw [hstate] at hrest
        cases readyState with
        | connecting => exact Or.inl hrest
        | opened => exact Or.inr hrest
        | closing => exact hrest
        | closed => exact hrest
    rcases hclosing with hstate | hstate <;> simpa [hstate, hsent] using hor

theorem step_inv {serverAddress : List UInt16} (page : Client) (e : Event)
    (h : Inv serverAddress page) : Inv serverAddress (step page e) := by
  cases e with
  | connectTimer initFails =>
    simp only [step]
    split
    · rename_i hphase
      exact connectPoll_inv hphase h
    · exact h
  | handshakeTimer blocks rc =>
    simp only [step]
    split
    · rename_i hphase
      cases hpoll : handshakePoll page blocks rc with
      | none => exact h
      | some page' => exact handshakePoll_inv hphase hpoll h
    · exact h
  | sshCall blocks =>
    simp only [step]
    split
    · rename_i hphase
      cases hall : page.sendAll blocks with
      | none => exact h
      | some page' =>
        have hgreet : Greeted page := by
          rcases h.banner with hgreet | ⟨-, -, -, hne⟩
          · exact hgreet
          · exact absurd hphase hne
        obtain ⟨hnext, -, hsame⟩ := sendAll_socketInv hall h.socket
        refine ⟨hnext, Or.inl (sendAll_greeted hall hgreet), fun hc => ?_⟩
        simp [hsame, hphase] at hc
    · exact h
  | socketOpens =>
    simp only [step]
    split
    · rename_i hstate
      refine socketEvent_inv h (by simp [hstate]) ?_ ?_
      · rfl
      · exact Or.inl ⟨hstate, rfl, rfl⟩
    · exact h
  | socketCloses =>
    simp only [step]
    split
    · rename_i hstate
      refine socketEvent_inv h (by rcases hstate with hstate | hstate <;> simp [hstate]) ?_ ?_
      · rfl
      · exact Or.inr ⟨rfl, Or.inl rfl⟩
    · exact h
  | socketClosed =>
    simp only [step]
    split
    · exact h
    · rename_i hstate
      refine socketEvent_inv h hstate ?_ ?_
      · rfl
      · exact Or.inr ⟨rfl, Or.inr rfl⟩
  | unload =>
    cases hstate : page.em.serversocket with
    | none => simpa [step, jssClose, hstate] using h
    | some readyState =>
      simp only [step, jssClose, hstate, Option.map_some, Option.getD_some]
      refine socketEvent_inv h (by simp [hstate]) rfl (Or.inr ⟨rfl, ?_⟩)
      by_cases hclosed : readyState = .closed <;> simp [hclosed]

/-- For an arbitrary client: nothing is written unless its first message after the
address shows a libssh2 banner, and then everything is. -/
theorem forwardws_writes (conn : Conn) (messages : List Bytes) (h : conn.writable = true) :
    (forwardws conn messages).written = conn.written ++
      if contains (messages.headD []) sshBanner then messages.flatten else [] := by
  rw [forwardws_written conn messages h]
  cases messages with
  | nil => simp [forwardwsLoop]
  | cons buffer rest =>
    rw [forwardwsLoop_true_cons, List.headD_cons]
    split <;> rfl

/-- Every page and the filter agree: the address comes first, then the successfully
sent blocks, which the proxy writes out unchanged; nothing else passes the filter. -/
theorem page_messages_pass_filter (serverAddress : List UInt16) (es : List Event) (conn : Conn)
    (messages : List Bytes) (hwritable : conn.writable = true) :
    let page := run step (initialClient serverAddress) es
    (page.em.sent = [] ∧ sentBlocks page.sends = [] ∨
        page.em.sent = addressMessage serverAddress :: sentBlocks page.sends) ∧
      (∀ first ∈ (sentBlocks page.sends).head?, contains first sshBanner = true) ∧
      (forwardws conn page.em.sent.tail).written =
        conn.written ++ (sentBlocks page.sends).flatten ∧
      (forwardws conn messages).written = conn.written ++
        if contains (messages.headD []) sshBanner then messages.flatten else [] := by
  intro page
  have hinv : Inv serverAddress page :=
    invariant_of_step step (Inv serverAddress) step_inv es (inv_initial serverAddress)
  have hsent : page.em.sent = [] ∧ sentBlocks page.sends = [] ∨
      page.em.sent = addressMessage serverAddress :: sentBlocks page.sends := by
    obtain ⟨-, hstate⟩ := hinv.socket
    split at hstate
    · exact Or.inl ⟨hstate.1, hstate.2.1⟩
    · exact Or.inl hstate
    · exact Or.inr hstate
    · exact hstate
  have hbanner : contains defaultBanner sshBanner = true := by decide
  have hfirst : ∀ first ∈ (sentBlocks page.sends).head?, contains first sshBanner = true := by
    intro first hmem
    rcases hinv.banner with hgreet | ⟨hnone, -⟩
    · rw [show first = defaultBanner from Option.mem_unique hmem hgreet]
      exact hbanner
    · simp [hnone] at hmem
  have hblocks : page.em.sent.tail = sentBlocks page.sends := by
    rcases hsent with ⟨hnil, hnone⟩ | hcons
    · rw [hnil, hnone, List.tail_nil]
    · rw [hcons, List.tail_cons]
  refine ⟨hsent, hfirst, ?_, forwardws_writes conn messages hwritable⟩
  rw [hblocks, forwardws_writes conn _ hwritable]
  cases hlist : sentBlocks page.sends with
  | nil => simp
  | cons first rest =>
    have hcontains : contains first sshBanner = true := hfirst first (by simp [hlist])
    rw [List.headD_cons, if_pos hcontains]

/-- A handshake that polls before and after the socket opens, to "h:1". -/
def shortHandshake : List Event :=
  [.connectTimer false, .handshakeTimer [] (-37), .socketOpens, .handshakeTimer [[0x14]] (-37)]

theorem page_messages_pass_filter_short :
    let page := run step (initialClient [0x68, 0x3a, 0x31]) shortHandshake
    page.em.sent = [[0x68, 0x3a, 0x31, 0x00], defaultBanner, [0x14]] ∧
      (forwardws ⟨[], [], true⟩ page.em.sent.tail).written = defaultBanner ++ [0x14] := by
  have h := page_messages_pass_filter [0x68, 0x3a, 0x31] shortHandshake ⟨[], [], true⟩ [] rfl
  exact ⟨by decide, h.2.2.1.trans (by decide)⟩

end Jterm.Page
