import Capybara.Lib.Pool
import Capybara.SocketCalls
import Capybara.TableFrames

namespace Capybara

open Pool Runs

/-- The port of the address that a socket keeps. -/
def Inner.heldPort (i : Inner) (qd : QDesc) : Option UInt16 :=
  ((i.sockets.get qd).bind Socket.bound).map SocketAddrV4.port

/-- Every port of the pool is free once or held by one socket, and no socket whose connection attempt is over keeps
one. -/
structure Inner.PortsConserved (initial : List UInt16) (i : Inner) : Prop where
  once : Conserved initial i.ephemeralPorts.ports i.heldPort
  released : ∀ qd local_ remote, i.sockets.get qd = some (.connecting local_ remote) → local_.port ∈ initial →
    (i.connecting.get (local_, remote)).isSome = true

/-- An event of a server that neither accepts connections nor migrates them. -/
def InnerEvent.Plain : InnerEvent → Prop
  | .pollAccept _ _ _ | .tcpmig _ _ | .initiateByAddr _ | .initiateByQd _ => False
  | _ => True

/-- No socket that holds a port of the pool is closed, and no connection attempt from such a port is found to have
failed. -/
def Inner.KeepsPorts (initial : List UInt16) (i : Inner) : InnerEvent → Prop
  | .doClose qd _ => ∀ port, i.heldPort qd = some port → port ∉ initial
  | .pollConnectFinished qd => ∀ local_ remote s e, i.sockets.get qd = some (.connecting local_ remote) →
      i.connecting.get (local_, remote) = some s → s.result = some (.error e) → local_.port ∉ initial
  | _ => True

section

variable {initial : List UInt16} {p p' : EphemeralPorts} {addr addr' : SocketAddrV4} {held held' : QDesc → Option UInt16}
  {qd : QDesc}

/-- A bind takes its port out of the pool, or the port is no private one and the pool stays. -/
theorem EphemeralPorts.Takes.perm (h : p.Takes addr addr' p') (hn : p.ports.Nodup) :
    p.ports.Perm (addr'.port :: p'.ports) ∨ (p' = p ∧ EphemeralPorts.isPrivate addr'.port = false) := by
  cases h with
  | private_ hprivate hfree =>
    left
    have herase : p.ports.filter (· ≠ addr.port) = p.ports.erase addr.port := by
      rw [hn.erase_eq_filter]
      exact List.filter_congr fun x _ => by by_cases hx : x = addr.port <;> simp [hx]
    rw [herase]
    exact List.perm_cons_erase hfree
  | wildcard hzero hlast =>
    exact .inl (perm_dropLast hlast)
  | other hpublic hnonzero => exact .inr ⟨rfl, hpublic⟩

theorem EphemeralPorts.Takes.conserved (h : p.Takes addr addr' p') (hc : Conserved initial p.ports held)
    (hall : ∀ port ∈ initial, EphemeralPorts.isPrivate port = true) (hbefore : held qd = none)
    (hafter : held' qd = some addr'.port) (hothers : ∀ qd', qd' ≠ qd → held' qd' = held qd') :
    Conserved initial p'.ports held' := by
  rcases h.perm hc.nodup with hp | ⟨rfl, hpublic⟩
  · exact hc.take hp hbefore hafter hothers
  · refine hc.congr (List.Perm.refl _) fun port hport qd' => ?_
    by_cases heq : qd' = qd
    · subst heq
      rw [hafter, hbefore]
      refine ⟨fun hsame => ?_, nofun⟩
      rw [Option.some.injEq] at hsame
      rw [hsame, hall port hport] at hpublic
      cases hpublic
    · rw [hothers qd' heq]

theorem EphemeralPorts.Takes.conserved_back (h : p.Takes addr addr' p') (hc : Conserved initial p.ports held)
    (hall : ∀ port ∈ initial, EphemeralPorts.isPrivate port = true) :
    Conserved initial (p'.giveBack addr'.port).ports held := by
  refine hc.perm ?_
  unfold EphemeralPorts.giveBack
  rcases h.perm hc.nodup with hp | ⟨rfl, hpublic⟩
  · have hmem : addr'.port ∈ initial := hc.within (hp.mem_iff.mpr List.mem_cons_self)
    rw [if_pos (hall _ hmem)]
    exact (List.perm_append_singleton _ _).trans hp.symm
  · rw [hpublic, if_neg Bool.false_ne_true]

end

namespace Inner

section

variable {initial : List UInt16} {i i' : Inner} {qd : QDesc} {remote : SocketAddrV4}

theorem heldPort_of {socket : Socket} (h : i.sockets.get qd = some socket) :
    i.heldPort qd = socket.bound.map SocketAddrV4.port := by
  rw [heldPort, h, Option.bind_some]

theorem heldPort_congr (h : i'.sockets.get qd = i.sockets.get qd) : i'.heldPort qd = i.heldPort qd := by
  rw [heldPort, heldPort, h]

theorem get_of_insert {socket : Socket} (h : i'.sockets = i.sockets.insert qd socket) {qd' : QDesc} (hne : qd' ≠ qd) :
    i'.sockets.get qd' = i.sockets.get qd' := by
  rw [h, HashMap.get_insert, if_neg hne]

/-- What is needed of a step that gives no port away and takes none. -/
structure HoldsOn (i i' : Inner) : Prop where
  ephemeralPorts : i'.ephemeralPorts = i.ephemeralPorts
  held : ∀ qd, i'.heldPort qd = i.heldPort qd
  connecting : ∀ qd local_ remote, i'.sockets.get qd = some (.connecting local_ remote) →
    i.sockets.get qd = some (.connecting local_ remote) ∧
      ((i.connecting.get (local_, remote)).isSome = true → (i'.connecting.get (local_, remote)).isSome = true)

theorem PortsConserved.holdsOn (h : i.PortsConserved initial) (hh : i.HoldsOn i') : i'.PortsConserved initial := by
  constructor
  · rw [hh.ephemeralPorts, show i'.heldPort = i.heldPort from funext hh.held]
    exact h.once
  · intro qd local_ remote hsocket hport
    obtain ⟨hbefore, hgrows⟩ := hh.connecting qd local_ remote hsocket
    exact hgrows (h.released qd local_ remote hbefore hport)

/-- The sockets stay as they are and no connection attempt ends. -/
theorem HoldsOn.of_sockets (hs : i'.sockets = i.sockets) (hp : i'.ephemeralPorts = i.ephemeralPorts)
    (hc : ∀ key, (i.connecting.get key).isSome = true → (i'.connecting.get key).isSome = true) : i.HoldsOn i' := by
  refine ⟨hp, fun qd => heldPort_congr (by rw [hs]), fun qd local_ remote hsocket => ⟨?_, hc (local_, remote)⟩⟩
  rw [← hs]
  exact hsocket

/-- One socket changes without its address, and it does not become one that connects. -/
theorem HoldsOn.of_insert {socket : Socket} (hs : i'.sockets = i.sockets.insert qd socket)
    (hp : i'.ephemeralPorts = i.ephemeralPorts) (hc : i'.connecting = i.connecting)
    (hbound : socket.bound.map SocketAddrV4.port = i.heldPort qd)
    (hother : ∀ local_ remote, socket ≠ .connecting local_ remote) : i.HoldsOn i' := by
  have hat : i'.sockets.get qd = some socket := by rw [hs, HashMap.get_insert, if_pos rfl]
  refine ⟨hp, fun qd' => ?_, fun qd' local_ remote hsocket => ⟨?_, fun h => by rw [hc]; exact h⟩⟩
  · by_cases heq : qd' = qd
    · subst heq
      rw [heldPort_of hat, hbound]
    · exact heldPort_congr (get_of_insert hs heq)
  · by_cases heq : qd' = qd
    · subst heq
      exact absurd (Option.some.inj (hat.symm.trans hsocket)) (hother local_ remote)
    · rw [← get_of_insert hs heq]
      exact hsocket

theorem HoldsOn.of_undisturbed (h : i.Undisturbed i') : i.HoldsOn i' :=
  .of_sockets h.sockets h.ephemeralPorts fun key hkey => (h.connecting key).trans hkey

theorem doSocket_holdsOn (i : Inner) (qd : QDesc) : i.HoldsOn (i.doSocket qd).2 := by
  unfold doSocket
  split
  next hnone =>
    refine .of_insert rfl rfl rfl ?_ nofun
    rw [heldPort, hnone]
    rfl
  next => exact .of_sockets rfl rfl fun _ h => h

theorem listen_holdsOn (i : Inner) (qd : QDesc) (backlog : Nat) (nonce : UInt32) :
    i.HoldsOn (i.listen qd backlog nonce).2 := by
  have hself : i.HoldsOn i := .of_sockets rfl rfl fun _ h => h
  unfold listen
  split
  next local_ hsocket =>
    split
    next => exact hself
    next => exact .of_insert rfl rfl rfl (heldPort_of hsocket).symm nofun
  all_goals exact hself

theorem bind_conserved (h : i.PortsConserved initial) (hall : ∀ port ∈ initial, EphemeralPorts.isPrivate port = true)
    (qd : QDesc) (addr : SocketAddrV4) : (i.bind qd addr).2.PortsConserved initial := by
  have hcases := i.bind_bound qd addr
  generalize i.bind qd addr = outcome at hcases
  cases hcases with
  | inUse | noPort => exact h
  | bound htakes hsocket =>
    refine ⟨htakes.conserved h.once hall (heldPort_of hsocket) ?_ fun qd' hne => ?_, ?_⟩
    · rw [heldPort_of (by rw [HashMap.get_insert, if_pos rfl])]
      rfl
    · exact heldPort_congr (get_of_insert rfl hne)
    · intro qd' local_ remote hconnecting
      by_cases heq : qd' = qd
      · rw [heq, HashMap.get_insert, if_pos rfl] at hconnecting
        cases hconnecting
      · rw [HashMap.get_insert, if_neg heq] at hconnecting
        exact h.released qd' local_ remote hconnecting
  | rolledBack hfree htakes hsocket => exact ⟨htakes.conserved_back h.once hall, h.released⟩

theorem Chooses.conserved {local_ : SocketAddrV4} {ports : EphemeralPorts} (h : i.Chooses qd local_ ports)
    (hc : Conserved initial i.ephemeralPorts.ports i.heldPort)
    (hs : i'.sockets = i.sockets.insert qd (.connecting local_ remote)) : Conserved initial ports.ports i'.heldPort := by
  have hafter : i'.heldPort qd = some local_.port := by
    rw [heldPort_of (by rw [hs, HashMap.get_insert, if_pos rfl])]
    rfl
  have hothers : ∀ qd', qd' ≠ qd → i'.heldPort qd' = i.heldPort qd' := fun qd' hne =>
    heldPort_congr (get_of_insert hs hne)
  cases h with
  | fresh hsocket hlast => exact hc.take (perm_dropLast hlast) (heldPort_of hsocket) hafter hothers
  | bound hsocket =>
    have hbefore : i.heldPort qd = some local_.port := heldPort_of hsocket
    refine hc.congr (List.Perm.refl _) fun port hport qd' => ?_
    by_cases heq : qd' = qd
    · rw [heq, hafter, hbefore]
    · rw [hothers qd' heq]

theorem connect_conserved {r : Except Fail Unit} (h : i.PortsConserved initial)
    (hr : i.connect qd remote = some (r, i')) : i'.PortsConserved initial := by
  have hcases := i.connect_connects qd remote
  rw [hr] at hcases
  cases hcases with
  | refused => exact h
  | starts hchooses hisn hresult =>
    rename_i local_ ports localIsn isnGenerator
    refine ⟨hchooses.conserved h.once rfl, fun qd' local₁ remote₁ hconnecting hport => ?_⟩
    · rw [HashMap.get_insert]
      split
      next => rfl
      next hne =>
        refine h.released qd' local₁ remote₁ ?_ hport
        by_cases heq : qd' = qd
        · rw [heq, HashMap.get_insert, if_pos rfl] at hconnecting
          cases hconnecting
          exact absurd rfl hne
        · rw [HashMap.get_insert, if_neg heq] at hconnecting
          exact hconnecting

theorem Finishes.conserved_iff (h : i.PortsConserved initial) (hf : i.Finishes qd i') :
    i'.PortsConserved initial ↔ i.KeepsPorts initial (.pollConnectFinished qd) := by
  cases hf with
  | waits hsame hgoes =>
    refine ⟨fun _ local_ remote s e hsocket hentry hresult => ?_, fun _ => h.holdsOn (.of_undisturbed hsame)⟩
    cases (hgoes local_ remote s hsocket hentry).symm.trans hresult
  | fails hsocket hentry hresult hafter =>
    rename_i local_ remote s e
    subst hafter
    constructor
    · intro h' local₁ remote₁ s₁ e₁ hsocket₁ hentry₁ _ hport
      have hsome := h'.released qd local₁ remote₁ hsocket₁ hport
      cases hsocket.symm.trans hsocket₁
      rw [HashMap.get_remove, if_pos rfl] at hsome
      cases hsome
    · intro hkeeps
      have hport := hkeeps local_ remote s e hsocket hentry hresult
      refine ⟨h.once, fun qd' local₁ remote₁ hsocket₁ hport₁ => ?_⟩
      have hne : (local₁, remote₁) ≠ (local_, remote) := fun heq => hport ((Prod.mk.inj heq).1 ▸ hport₁)
      rw [HashMap.get_remove, if_neg hne]
      exact h.released qd' local₁ remote₁ hsocket₁ hport₁
  | connects hsocket hentry hresult hports hqds hsockets hconnecting =>
    rename_i local_ remote s cb
    have hbefore : i.heldPort qd = some local_.port := heldPort_of hsocket
    have hafter : i'.heldPort qd = some local_.port := by
      rw [heldPort_of (by rw [hsockets, HashMap.get_insert, if_pos rfl])]
      rfl
    refine ⟨fun _ local₁ remote₁ s₁ e₁ hsocket₁ hentry₁ hresult₁ => ?_, fun _ => ⟨?_, ?_⟩⟩
    · cases hsocket.symm.trans hsocket₁
      cases hentry.symm.trans hentry₁
      cases hresult.symm.trans hresult₁
    · rw [hports]
      refine h.once.congr (List.Perm.refl _) fun port hport qd' => ?_
      by_cases heq : qd' = qd
      · rw [heq, hafter, hbefore]
      · rw [heldPort_congr (get_of_insert hsockets heq)]
    · intro qd' local₁ remote₁ hsocket₁ hport
      have hne : qd' ≠ qd := fun heq => by
        rw [heq, hsockets, HashMap.get_insert, if_pos rfl] at hsocket₁
        cases hsocket₁
      rw [get_of_insert hsockets hne] at hsocket₁
      have hkey : (local₁, remote₁) ≠ (local_, remote) := by
        intro heq
        cases heq
        exact hne (h.once.unique hport (heldPort_of hsocket₁) hbefore)
      rw [hconnecting, HashMap.get_remove, if_neg hkey]
      exact h.released qd' local₁ remote₁ hsocket₁ hport

theorem doClose_conserved_iff {env : Env} {r : Except Fail Unit} (h : i.PortsConserved initial)
    (hr : i.doClose qd env = some (r, i')) : i'.PortsConserved initial ↔ i.KeepsPorts initial (.doClose qd env) := by
  obtain ⟨hports, hconnecting, -, hsockets, -⟩ := doClose_closes hr
  have hgone : i'.heldPort qd = none := by
    rw [heldPort, hsockets, if_pos rfl]
    rfl
  have hothers : ∀ qd', qd' ≠ qd → i'.heldPort qd' = i.heldPort qd' := fun qd' hne =>
    heldPort_congr (by rw [hsockets, if_neg hne])
  have hreleased : ∀ qd' local_ remote, i'.sockets.get qd' = some (.connecting local_ remote) → local_.port ∈ initial →
      (i'.connecting.get (local_, remote)).isSome = true := by
    intro qd' local_ remote hsocket hport
    rw [hconnecting]
    refine h.released qd' local_ remote ?_ hport
    rw [hsockets] at hsocket
    split at hsocket
    next => cases hsocket
    next => exact hsocket
  have hiff := h.once.drop_iff hgone hothers
  constructor
  · intro h'
    have honce := h'.once
    rw [hports] at honce
    exact hiff.mp honce
  · intro hkeeps
    refine ⟨?_, hreleased⟩
    rw [hports]
    exact hiff.mpr hkeeps

/-- A step conserves the ports exactly if it closes no socket with a port of the pool and finds no attempt failed. -/
theorem step_conserved_iff (hall : ∀ port ∈ initial, EphemeralPorts.isPrivate port = true) {e : InnerEvent}
    (h : i.PortsConserved initial) (he : e.Plain) (hs : i.step e = some i') :
    i'.PortsConserved initial ↔ i.KeepsPorts initial e := by
  cases e with
  | doSocket qd =>
    cases hs
    exact ⟨fun _ => trivial, fun _ => h.holdsOn (doSocket_holdsOn i qd)⟩
  | bind qd addr =>
    cases hs
    exact ⟨fun _ => trivial, fun _ => bind_conserved h hall qd addr⟩
  | listen qd backlog nonce =>
    cases hs
    exact ⟨fun _ => trivial, fun _ => h.holdsOn (listen_holdsOn i qd backlog nonce)⟩
  | connect qd remote =>
    obtain ⟨⟨r, _⟩, hr, rfl⟩ := Option.map_eq_some_iff.mp hs
    exact ⟨fun _ => trivial, fun _ => connect_conserved h hr⟩
  | pollConnectFinished qd =>
    obtain ⟨⟨r, _⟩, hr, rfl⟩ := Option.map_eq_some_iff.mp hs
    exact (pollConnectFinished_finishes hr).conserved_iff h
  | pollRecv qd =>
    cases hs
    exact ⟨fun _ => trivial, fun _ => h.holdsOn (.of_undisturbed (pollRecv_undisturbed i qd))⟩
  | send qd buf env =>
    obtain ⟨⟨r, _⟩, hr, rfl⟩ := Option.map_eq_some_iff.mp hs
    exact ⟨fun _ => trivial, fun _ => h.holdsOn (.of_undisturbed (send_undisturbed hr))⟩
  | doClose qd env =>
    obtain ⟨⟨r, _⟩, hr, rfl⟩ := Option.map_eq_some_iff.mp hs
    exact doClose_conserved_iff h hr
  | segment srcAddr dstAddr header data env =>
    obtain ⟨⟨r, _⟩, hr, rfl⟩ := Option.map_eq_some_iff.mp hs
    exact ⟨fun _ => trivial, fun _ => h.holdsOn (.of_undisturbed (receive_undisturbed hr))⟩
  | task key task env => exact ⟨fun _ => trivial, fun _ => h.holdsOn (.of_undisturbed (runTask_undisturbed hs))⟩
  | handshakeTimeout key =>
    cases hs
    exact ⟨fun _ => trivial, fun _ => h.holdsOn (.of_undisturbed (handshakeTimeout_undisturbed i key))⟩
  | registerState qd state => exact ⟨fun _ => trivial, fun _ => h.holdsOn (.of_undisturbed (registerApplicationState_undisturbed hs))⟩
  | takeState decode qd =>
    obtain ⟨⟨r, _⟩, hr, rfl⟩ := Option.map_eq_some_iff.mp hs
    exact ⟨fun _ => trivial, fun _ => h.holdsOn (.of_undisturbed (getMigratedApplicationState_undisturbed hr))⟩
  | pollAccept | tcpmig | initiateByAddr | initiateByQd => exact he.elim

end

end Inner

end Capybara
