import Capybara.CloseCall
import Capybara.PeerMigration
import Capybara.SocketCalls

namespace Capybara

open Runs

inductive TcpCall
  | bind (qd : QDesc) (addr : SocketAddrV4)
  | listen (qd : QDesc) (backlog : Nat) (nonce : UInt32)
  | connect (qd : QDesc) (remote : SocketAddrV4)
  | doClose (qd : QDesc) (env : Env)

inductive UdpCall
  | doBind (qd : QDesc) (addr : SocketAddrV4)
  | doClose (qd : QDesc)

def Inner.call (i : Inner) : TcpCall → Option (Except Fail Unit × Inner)
  | .bind qd addr => some (i.bind qd addr)
  | .listen qd backlog nonce => some (i.listen qd backlog nonce)
  | .connect qd remote => i.connect qd remote
  | .doClose qd env => i.doClose qd env

def UdpPeer.call (u : UdpPeer) : UdpCall → Except Fail Unit × UdpPeer
  | .doBind qd addr => u.doBind qd addr
  | .doClose qd => u.doClose qd

/-- The tables that the socket calls of TCP work on are as they were. -/
structure Inner.SameTables (i i' : Inner) : Prop where
  sockets : i'.sockets = i.sockets
  passive : i'.passive = i.passive
  connecting : i'.connecting = i.connecting
  ephemeralPorts : i'.ephemeralPorts = i.ephemeralPorts

def Inner.Atomic (i : Inner) (call : TcpCall) : Prop := ∀ e i', i.call call = some (.error e, i') → i.SameTables i'

def UdpPeer.Atomic (u : UdpPeer) (call : UdpCall) : Prop := ∀ e u', u.call call = (.error e, u') → u' = u

/-- An error of the call comes before any change, or everything is put back as it was. -/
def Inner.FailsClean (i : Inner) : TcpCall → Prop
  | .bind qd addr => (i.sockets.any fun socket => socket.bound = some addr) = true ∨
      i.sockets.get qd = some (.inactive none) ∨ i.ephemeralPorts.Restores addr.port
  | .listen _ _ _ => True
  | .connect qd remote => ∀ local_ ports, i.Chooses qd local_ ports →
      (i.isnGenerator.generate local_ remote).isSome = true → i.connecting.get (local_, remote) = none
  | .doClose qd _ => match i.sockets.get qd with
    | none => True
    | some (.established local_ remote) => (i.established.get (local_, remote)).isSome = true
    | some _ => False

def UdpPeer.FailsClean (u : UdpPeer) : UdpCall → Prop
  | .doBind qd addr => (u.bound.get addr).isSome = true ∨ match u.sockets.get qd with
    | some none => ∀ addr' ports, u.ephemeralPorts.Takes addr addr' ports → u.bound.get addr' = none
    | _ => u.ephemeralPorts.Restores addr.port
  | .doClose qd => match u.sockets.get qd with
    | none => True
    | some none => False
    | some (some local_) => (u.bound.get local_).isSome = true

section

variable {i : Inner} {u : UdpPeer}

theorem bind_atomic_iff (qd : QDesc) (addr : SocketAddrV4) :
    i.Atomic (.bind qd addr) ↔ i.FailsClean (.bind qd addr) := by
  have hcases := i.bind_bound qd addr
  unfold Inner.Atomic Inner.FailsClean Inner.call
  dsimp only
  generalize i.bind qd addr = outcome at hcases
  cases hcases with
  | inUse hused =>
    refine ⟨fun _ => .inl hused, fun _ e i' heq => ?_⟩
    cases heq
    exact ⟨rfl, rfl, rfl, rfl⟩
  | noPort hno =>
    refine ⟨fun _ => .inr (.inr (EphemeralPorts.restores_of_not_takes hno)), fun _ e i' heq => ?_⟩
    cases heq
    exact ⟨rfl, rfl, rfl, rfl⟩
  | bound htakes hsocket => exact ⟨fun _ => .inr (.inl hsocket), fun _ e i' heq => (by cases heq)⟩
  | rolledBack hfree htakes hsocket =>
    constructor
    · intro hatomic
      have htables := hatomic _ _ rfl
      exact .inr (.inr (htakes.giveBack_iff.mp htables.ephemeralPorts))
    · rintro (hused | hinactive | hrestores) e i' heq
      · cases hused.symm.trans hfree
      · exact absurd hinactive hsocket
      · cases heq
        exact ⟨rfl, rfl, rfl, htakes.giveBack_iff.mpr hrestores⟩

theorem listen_atomic (qd : QDesc) (backlog : Nat) (nonce : UInt32) : i.Atomic (.listen qd backlog nonce) := by
  intro e i' h
  unfold Inner.call Inner.listen at h
  dsimp only at h
  split at h
  next =>
    split at h
    next => cases h; exact ⟨rfl, rfl, rfl, rfl⟩
    next => cases h
  all_goals
    cases h
    exact ⟨rfl, rfl, rfl, rfl⟩

theorem connect_atomic_iff (qd : QDesc) (remote : SocketAddrV4) :
    i.Atomic (.connect qd remote) ↔ i.FailsClean (.connect qd remote) := by
  have hcases := i.connect_connects qd remote
  unfold Inner.Atomic Inner.FailsClean Inner.call
  dsimp only
  generalize i.connect qd remote = outcome at hcases
  cases hcases with
  | refused hno =>
    refine ⟨fun _ local_ ports hchooses => absurd hchooses (hno local_ ports), fun _ e i' heq => ?_⟩
    cases heq
    exact ⟨rfl, rfl, rfl, rfl⟩
  | panics hchooses hisn =>
    refine ⟨fun _ local_ ports hchooses₁ hsome => ?_, fun _ e i' heq => (by cases heq)⟩
    obtain ⟨rfl, -⟩ := hchooses.unique hchooses₁
    rw [hisn] at hsome
    cases hsome
  | starts hchooses hisn hresult =>
    rename_i result
    constructor
    · intro hatomic local_ ports hchooses₁ _
      obtain ⟨rfl, -⟩ := hchooses.unique hchooses₁
      cases result with
      | ok => exact hresult.mp rfl
      | error e =>
        have hsockets := (hatomic e _ rfl).sockets
        obtain ⟨address, hinactive⟩ := hchooses.inactive
        exact absurd hsockets (HashMap.insert_ne (by rw [hinactive]; exact nofun))
    · intro hclean e i' heq
      have hok := hresult.mpr (hclean _ _ hchooses (by rw [hisn]; rfl))
      rw [hok] at heq
      cases heq

/-- A block never refuses to close. -/
theorem ControlBlock.close_ok {cb cb' : ControlBlock} {env : Env} {result : Except Fail Unit}
    (h : cb.close env = some (result, cb')) : result = .ok () := by
  cases hdone : cb.userIsDoneSending with
  | true =>
    rw [ControlBlock.close, if_pos hdone] at h
    cases h
    rfl
  | false =>
    obtain ⟨-, _, -, hok, -⟩ := (ControlBlock.close_eq_some_iff hdone).mp h
    exact hok

theorem doClose_atomic_iff (qd : QDesc) (env : Env) : i.Atomic (.doClose qd env) ↔ i.FailsClean (.doClose qd env) := by
  unfold Inner.Atomic Inner.FailsClean Inner.call Inner.doClose
  dsimp only
  cases hsocket : i.sockets.get qd with
  | none =>
    refine ⟨fun _ => trivial, fun _ e i' heq => ?_⟩
    cases heq
    exact ⟨rfl, rfl, rfl, rfl⟩
  | some socket =>
    have hchanged : ¬i.SameTables { i with sockets := i.sockets.remove qd } := fun h =>
      HashMap.remove_ne hsocket h.sockets
    cases socket with
    | established local_ remote =>
      dsimp only
      cases hentry : i.established.get (local_, remote) with
      | none => exact ⟨fun hatomic => absurd (hatomic _ _ rfl) hchanged, fun h => (by cases h)⟩
      | some s =>
        refine ⟨fun _ => rfl, fun _ e i' heq => ?_⟩
        obtain ⟨⟨result, cb⟩, hclose, heq⟩ := Option.bind_eq_some_iff.mp heq
        cases ControlBlock.close_ok hclose
        cases heq
    | inactive _ | listening _ | connecting _ _ | migratedOut _ _ =>
      exact ⟨fun hatomic => hchanged (hatomic _ _ rfl), False.elim⟩

theorem doBind_atomic_iff (qd : QDesc) (addr : SocketAddrV4) :
    u.Atomic (.doBind qd addr) ↔ u.FailsClean (.doBind qd addr) := by
  have hcases := u.doBind_bound qd addr
  unfold UdpPeer.Atomic UdpPeer.FailsClean UdpPeer.call
  dsimp only
  generalize u.doBind qd addr = outcome at hcases
  cases hcases with
  | inUse hused =>
    refine ⟨fun _ => .inl hused, fun _ e u' heq => ?_⟩
    cases heq
    rfl
  | noPort hno =>
    refine ⟨fun _ => .inr ?_, fun _ e u' heq => ?_⟩
    · split
      · exact fun addr' ports htakes => absurd htakes (hno addr' ports)
      · exact EphemeralPorts.restores_of_not_takes hno
    · cases heq
      rfl
  | bound htakes hsocket hnew =>
    refine ⟨fun _ => .inr ?_, fun _ e u' heq => (by cases heq)⟩
    rw [hsocket]
    intro addr₁ ports₁ htakes₁
    obtain ⟨rfl, -⟩ := htakes.unique htakes₁
    exact hnew
  | clashed hfree htakes hsocket hold =>
    constructor
    · intro hatomic
      have hsockets := congrArg UdpPeer.sockets (hatomic _ _ rfl)
      exact absurd hsockets (HashMap.insert_ne (by rw [hsocket]; exact nofun))
    · rintro (hused | hclean) e u' heq
      · rw [hfree] at hused
        cases hused
      · rw [hsocket] at hclean
        exact absurd (hclean _ _ htakes) hold
  | rolledBack hfree htakes hsocket =>
    have hrestores : (match u.sockets.get qd with
        | some none => ∀ addr' ports, u.ephemeralPorts.Takes addr addr' ports → u.bound.get addr' = none
        | _ => u.ephemeralPorts.Restores addr.port) ↔ u.ephemeralPorts.Restores addr.port := by
      split
      next h => exact absurd h hsocket
      next => exact Iff.rfl
    rw [hrestores, ← htakes.giveBack_iff]
    constructor
    · intro hatomic
      exact .inr (congrArg UdpPeer.ephemeralPorts (hatomic _ _ rfl))
    · rintro (hused | hback) e u' heq
      · rw [hfree] at hused
        cases hused
      · cases heq
        rw [hback]

theorem udp_doClose_atomic_iff (qd : QDesc) : u.Atomic (.doClose qd) ↔ u.FailsClean (.doClose qd) := by
  unfold UdpPeer.Atomic UdpPeer.FailsClean UdpPeer.call UdpPeer.doClose
  dsimp only
  cases hsocket : u.sockets.get qd with
  | none =>
    refine ⟨fun _ => trivial, fun _ e u' heq => ?_⟩
    cases heq
    rfl
  | some address =>
    have hchanged : { u with sockets := u.sockets.remove qd } ≠ u := fun h =>
      HashMap.remove_ne hsocket (congrArg UdpPeer.sockets h)
    cases address with
    | none => exact ⟨fun hatomic => hchanged (hatomic _ _ rfl), False.elim⟩
    | some local_ =>
      dsimp only
      cases hentry : u.bound.get local_ with
      | none => exact ⟨fun hatomic => absurd (hatomic _ _ rfl) hchanged, fun h => (by cases h)⟩
      | some queue => exact ⟨fun _ => rfl, fun _ e u' heq => (by cases heq)⟩

end

/-- A socket call leaves the tables alone on an error exactly if it fails before any change or puts everything back. -/
theorem socketCalls_atomic_iff (i : Inner) (call : TcpCall) (u : UdpPeer) (udpCall : UdpCall) :
    (i.Atomic call ↔ i.FailsClean call) ∧ (u.Atomic udpCall ↔ u.FailsClean udpCall) := by
  constructor
  · cases call with
    | bind qd addr => exact bind_atomic_iff qd addr
    | listen qd backlog nonce => exact ⟨fun _ => trivial, fun _ => listen_atomic qd backlog nonce⟩
    | connect qd remote => exact connect_atomic_iff qd remote
    | doClose qd env => exact doClose_atomic_iff qd env
  · cases udpCall with
    | doBind qd addr => exact doBind_atomic_iff qd addr
    | doClose qd => exact udp_doClose_atomic_iff qd

/-- A server without connections. -/
def sampleServer (ports : List UInt16) : Inner :=
  .new (fun _ => 0) 0 ⟨ports⟩ ⟨2, 0, 0, 0, 0, 8⟩ ⟨10, 0, 1, 8⟩ ⟨65535, 0, 0⟩ 0

/-- Closing a listening socket is refused, and its descriptor is gone. -/
theorem socketCalls_atomic_listening : ∃ i i',
    run Inner.step (sampleServer [50000]) [.doSocket 1, .bind 1 ⟨⟨10, 0, 1, 8⟩, 80⟩, .listen 1 8 0] = some i ∧
    i.call (.doClose 1 linkEnv) = some (.error ⟨.ENOTSUP, "close not implemented for listening sockets"⟩, i') ∧
    i.sockets.get 1 = some (.listening ⟨⟨10, 0, 1, 8⟩, 80⟩) ∧ i'.sockets.get 1 = none ∧
    ¬i.Atomic (.doClose 1 linkEnv) := by
  refine ⟨_, _, rfl, rfl, rfl, rfl, fun hatomic => ?_⟩
  have hsockets := (hatomic _ _ rfl).sockets
  cases hsockets

end Capybara
