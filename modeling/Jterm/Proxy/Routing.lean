import Jterm.Proxy.Main

/-!
Which addresses the proxy connects to when a SOCKS server is set. The handler looks for
`localhost` anywhere in the client's address, while the connection goes to its host.
-/
namespace Jterm.Proxy

open GoNet

def localhost : Bytes := ascii "localhost"

/-- The host of an address; an address that does not split has none. -/
def hostOf (address : Bytes) : Option Bytes := (splitHostPort address).map Prod.fst

/-- For a host other than localhost no connection is opened but the one to the SOCKS server. -/
def RoutedBySocks (usesocks message : Bytes) (dial : Bytes → Option Conn) : Prop :=
  ∀ handled, wsProxyHandler usesocks (some message) dial = .ok handled →
    hostOf (addressOf message) ≠ some localhost →
      ∀ a ∈ handled.dialled, (dial a).isSome → a = usesocks

/-- What the handler dials: the address itself or the SOCKS server. -/
theorem wsProxyHandler_dialled {usesocks message : Bytes} {dial : Bytes → Option Conn}
    {handled : Handled} (h : wsProxyHandler usesocks (some message) dial = .ok handled) :
    handled.dialled =
      [if dialsDirectly usesocks (addressOf message) then addressOf message else usesocks] := by
  unfold wsProxyHandler at h
  dsimp only at h
  split at h
  · cases h
  · split at h
    · rename_i hdirect
      rw [if_pos hdirect, ← Except.ok.inj h]
    · rename_i hsocks
      rw [if_neg hsocks]
      split at h
      · cases h
      · rw [← Except.ok.inj h]
      · rw [← Except.ok.inj h]

/-- An address that contains localhost makes the handler dial it, whatever else it holds. -/
theorem wsProxyHandler_direct {usesocks message : Bytes} {dial : Bytes → Option Conn}
    (h : contains (addressOf message) localhost = true) :
    wsProxyHandler usesocks (some message) dial =
      .ok ⟨[addressOf message], dial (addressOf message)⟩ := by
  have hne : message.length ≠ 0 := by
    intro hzero
    rw [List.length_eq_zero_iff.mp hzero] at h
    exact absurd h (by decide)
  have hdirect : dialsDirectly usesocks (addressOf message) = true := by
    unfold dialsDirectly
    unfold localhost at h
    rw [h, Bool.or_true]
  unfold wsProxyHandler
  dsimp only
  rw [if_neg hne, if_pos hdirect]

/-- The routing holds exactly when an address that contains localhost has it as its host, is
the SOCKS server's own, or cannot be dialled. -/
theorem routedBySocks_iff (usesocks message : Bytes) (dial : Bytes → Option Conn)
    (hsocks : usesocks ≠ []) :
    RoutedBySocks usesocks message dial ↔
      (contains (addressOf message) localhost = true →
        hostOf (addressOf message) = some localhost ∨ addressOf message = usesocks ∨
          dial (addressOf message) = none) := by
  constructor
  · intro hrouted hcontains
    by_cases hhost : hostOf (addressOf message) = some localhost
    · exact .inl hhost
    · have hdialled := hrouted _ (wsProxyHandler_direct hcontains) hhost (addressOf message)
        (List.mem_singleton_self _)
      cases hdial : dial (addressOf message) with
      | none => exact .inr (.inr rfl)
      | some conn =>
        rw [hdial] at hdialled
        exact .inr (.inl (hdialled rfl))
  · intro hcond handled hhandled hhost a ha hopen
    rw [wsProxyHandler_dialled hhandled, List.mem_singleton] at ha
    split at ha
    · rename_i hdirect
      have hcontains : contains (addressOf message) localhost = true := by
        simpa [dialsDirectly, hsocks, localhost] using hdirect
      rw [ha]
      rcases hcond hcontains with hlocal | hsame | hnone
      · exact absurd hlocal hhost
      · exact hsame
      · rw [ha, hnone] at hopen
        exact absurd hopen (by decide)
    · exact ha

/-- A network that accepts every connection. -/
def accepting (_ : Bytes) : Option Conn := some ⟨[], [], true⟩

theorem routedBySocks_iff_local :
    RoutedBySocks (ascii "tor:9050") (ascii "localhost:22" ++ [0]) accepting :=
  (routedBySocks_iff _ _ _ (by decide)).mpr fun _ => .inl (by decide)

/-- A host that has localhost as its first label is dialled directly. -/
theorem not_routedBySocks_label :
    ¬ RoutedBySocks (ascii "tor:9050") (ascii "localhost.example:22" ++ [0]) accepting := by
  intro h
  have hsame := h _ (wsProxyHandler_direct (by decide)) (by decide)
    (addressOf (ascii "localhost.example:22" ++ [0])) (by decide) rfl
  exact absurd hsame (by decide)

end Jterm.Proxy
