import Capybara.AtomicCalls
import Capybara.TcpPorts

namespace Capybara

open Pool Runs

inductive UdpEvent
  | doSocket (qd : QDesc)
  | call (call : UdpCall)

def UdpPeer.step (u : UdpPeer) : UdpEvent → Option UdpPeer
  | .doSocket qd => some (u.doSocket qd).2
  | .call call => some (u.call call).2

def UdpPeer.heldPort (u : UdpPeer) (qd : QDesc) : Option UInt16 := ((u.sockets.get qd).bind id).map SocketAddrV4.port

def UdpPeer.PortsConserved (initial : List UInt16) (u : UdpPeer) : Prop :=
  Conserved initial u.ephemeralPorts.ports u.heldPort

def UdpPeer.KeepsPorts (initial : List UInt16) (u : UdpPeer) : UdpEvent → Prop
  | .call (.doClose qd) => ∀ port, u.heldPort qd = some port → port ∉ initial
  | _ => True

namespace UdpPeer

/-- Every bound address with a port of the pool belongs to a socket. -/
def Registered (initial : List UInt16) (u : UdpPeer) : Prop :=
  ∀ addr, (u.bound.get addr).isSome = true → addr.port ∈ initial → ∃ qd, u.sockets.get qd = some (some addr)

section

variable {initial : List UInt16} {u u' : UdpPeer} {qd : QDesc}

theorem heldPort_of {socket : Option SocketAddrV4} (h : u.sockets.get qd = some socket) :
    u.heldPort qd = socket.map SocketAddrV4.port := by
  rw [heldPort, h]
  rfl

theorem heldPort_congr (h : u'.sockets.get qd = u.sockets.get qd) : u'.heldPort qd = u.heldPort qd := by
  rw [heldPort, heldPort, h]

theorem get_of_insert {socket : Option SocketAddrV4} (h : u'.sockets = u.sockets.insert qd socket) {qd' : QDesc}
    (hne : qd' ≠ qd) : u'.sockets.get qd' = u.sockets.get qd' := by
  rw [h, HashMap.get_insert, if_neg hne]

theorem doSocket_conserved (h : u.PortsConserved initial) (hr : u.Registered initial) (qd : QDesc) :
    (u.doSocket qd).2.PortsConserved initial ∧ (u.doSocket qd).2.Registered initial := by
  unfold doSocket
  split
  next hnone =>
    constructor
    · refine h.congr (List.Perm.refl _) fun port hport qd' => ?_
      by_cases heq : qd' = qd
      · rw [heq, heldPort_of (by rw [HashMap.get_insert, if_pos rfl]), heldPort, hnone]
        rfl
      · rw [heldPort_congr (get_of_insert rfl heq)]
    · intro addr hbound hport
      obtain ⟨qd', hqd⟩ := hr addr hbound hport
      have hne : qd' ≠ qd := fun heq => by
        rw [heq, hnone] at hqd
        cases hqd
      exact ⟨qd', (get_of_insert rfl hne).trans hqd⟩
  next => exact ⟨h, hr⟩

theorem doBind_conserved (hall : ∀ port ∈ initial, EphemeralPorts.isPrivate port = true) (h : u.PortsConserved initial)
    (hr : u.Registered initial) (qd : QDesc) (addr : SocketAddrV4) :
    (u.doBind qd addr).2.PortsConserved initial ∧ (u.doBind qd addr).2.Registered initial := by
  have hcases := u.doBind_bound qd addr
  generalize u.doBind qd addr = outcome at hcases
  cases hcases with
  | inUse | noPort => exact ⟨h, hr⟩
  | bound htakes hsocket hnew =>
    rename_i addr' ports
    constructor
    · refine htakes.conserved h hall (heldPort_of hsocket) ?_ fun qd' hne => heldPort_congr (get_of_insert rfl hne)
      rw [heldPort_of (by rw [HashMap.get_insert, if_pos rfl])]
      rfl
    · intro addr₁ hbound hport
      dsimp only at hbound ⊢
      by_cases heq : addr₁ = addr'
      · exact ⟨qd, by rw [HashMap.get_insert, if_pos rfl, heq]⟩
      · rw [HashMap.get_insert, if_neg heq] at hbound
        obtain ⟨qd', hqd⟩ := hr addr₁ hbound hport
        refine ⟨qd', ?_⟩
        rw [HashMap.get_insert, if_neg fun heq => ?_]
        · exact hqd
        · rw [heq, hsocket] at hqd
          cases hqd
  | clashed hfree htakes hsocket hold =>
    -- A new port comes from the pool, so no socket has it and no queue is left of it.
    cases htakes with
    | private_ | other => exact absurd hfree hold
    | wildcard hzero hlast =>
      have hmem := (perm_dropLast hlast).mem_iff.mpr List.mem_cons_self
      obtain ⟨qd', hqd⟩ := hr _ (Option.isSome_iff_ne_none.mpr hold) (h.within hmem)
      exact absurd (heldPort_of hqd) (h.free hmem qd')
  | rolledBack hfree htakes hsocket => exact ⟨htakes.conserved_back h hall, hr⟩

theorem doClose_tables (u : UdpPeer) (qd : QDesc) :
    (u.doClose qd).2.ephemeralPorts = u.ephemeralPorts ∧
      (∀ qd', (u.doClose qd).2.sockets.get qd' = if qd' = qd then none else u.sockets.get qd') ∧
      ∀ addr, ((u.doClose qd).2.bound.get addr).isSome = true → (u.bound.get addr).isSome = true := by
  unfold doClose
  split
  next hnone =>
    refine ⟨rfl, fun qd' => ?_, fun _ h => h⟩
    split
    next heq => rw [heq, hnone]
    next => rfl
  next =>
    dsimp only
    split
    next local_ =>
      split
      next =>
        refine ⟨rfl, fun qd' => HashMap.get_remove _ _ _, fun addr h => ?_⟩
        rw [HashMap.get_remove] at h
        split at h
        next => cases h
        next => exact h
      next => exact ⟨rfl, fun qd' => HashMap.get_remove _ _ _, fun _ h => h⟩
    next => exact ⟨rfl, fun qd' => HashMap.get_remove _ _ _, fun _ h => h⟩

theorem doClose_conserved_iff (h : u.PortsConserved initial) (hr : u.Registered initial) (qd : QDesc) :
    ((u.doClose qd).2.PortsConserved initial ↔ u.KeepsPorts initial (.call (.doClose qd))) ∧
      (u.KeepsPorts initial (.call (.doClose qd)) → (u.doClose qd).2.Registered initial) := by
  obtain ⟨hports, hsockets, hbound⟩ := u.doClose_tables qd
  have hgone : (u.doClose qd).2.heldPort qd = none := by
    rw [heldPort, hsockets, if_pos rfl]
    rfl
  refine ⟨?_, fun hkeeps addr hsome hport => ?_⟩
  · rw [PortsConserved, hports]
    exact h.drop_iff hgone fun qd' hne => heldPort_congr (by rw [hsockets, if_neg hne])
  · obtain ⟨qd', hqd⟩ := hr addr (hbound addr hsome) hport
    refine ⟨qd', ?_⟩
    rw [hsockets, if_neg fun heq => ?_]
    · exact hqd
    · exact hkeeps addr.port (heq ▸ heldPort_of hqd) hport

theorem step_conserved_iff (hall : ∀ port ∈ initial, EphemeralPorts.isPrivate port = true) {e : UdpEvent}
    (hr : u.Registered initial) (h : u.PortsConserved initial) (hs : u.step e = some u') :
    (u'.PortsConserved initial ↔ u.KeepsPorts initial e) ∧ (u.KeepsPorts initial e → u'.Registered initial) := by
  cases e with
  | doSocket qd =>
    cases hs
    obtain ⟨hc, hr'⟩ := doSocket_conserved h hr qd
    exact ⟨⟨fun _ => trivial, fun _ => hc⟩, fun _ => hr'⟩
  | call call =>
    cases hs
    cases call with
    | doBind qd addr =>
      obtain ⟨hc, hr'⟩ := doBind_conserved hall h hr qd addr
      exact ⟨⟨fun _ => trivial, fun _ => hc⟩, fun _ => hr'⟩
    | doClose qd => exact doClose_conserved_iff h hr qd

end

end UdpPeer

namespace EphemeralPorts

/-- A pool that a peer can start with while CORE_ID is not set. -/
def Fresh (pool : EphemeralPorts) : Prop :=
  ∃ shuffle : List UInt16 → List UInt16, (∀ ports, (shuffle ports).Perm ports) ∧ new shuffle none = some pool

theorem privatePorts_toNat {port : UInt16} (h : port ∈ privatePorts) : 49152 ≤ port.toNat := by
  obtain ⟨n, hn, rfl⟩ := List.mem_map.mp h
  obtain ⟨hlow, hhigh⟩ := List.mem_range'_1.mp hn
  change 49152 ≤ n at hlow
  change n < 49152 + 16383 at hhigh
  rw [UInt16.toNat_ofNat', Nat.mod_eq_of_lt (by omega)]
  exact hlow

theorem privatePorts_nodup : privatePorts.Nodup := by
  refine List.Nodup.map_on (fun m hm n hn heq => ?_) List.nodup_range'
  have hmn := congrArg UInt16.toNat heq
  obtain ⟨-, hm⟩ := List.mem_range'_1.mp hm
  obtain ⟨-, hn⟩ := List.mem_range'_1.mp hn
  change m < 49152 + 16383 at hm
  change n < 49152 + 16383 at hn
  rw [UInt16.toNat_ofNat', UInt16.toNat_ofNat', Nat.mod_eq_of_lt (by omega), Nat.mod_eq_of_lt (by omega)] at hmn
  exact hmn

theorem Fresh.perm {pool : EphemeralPorts} (h : pool.Fresh) : pool.ports.Perm privatePorts := by
  obtain ⟨shuffle, hshuffle, hnew⟩ := h
  cases hnew
  exact hshuffle _

theorem Fresh.nodup {pool : EphemeralPorts} (h : pool.Fresh) : pool.ports.Nodup :=
  h.perm.nodup_iff.mpr privatePorts_nodup

theorem Fresh.isPrivate {pool : EphemeralPorts} (h : pool.Fresh) {port : UInt16} (hport : port ∈ pool.ports) :
    EphemeralPorts.isPrivate port = true := by
  have hle := privatePorts_toNat (h.perm.mem_iff.mp hport)
  exact decide_eq_true (UInt16.le_iff_toNat_le.mpr hle)

end EphemeralPorts

section

variable {pool udpPool : EphemeralPorts} {crc : Buffer → UInt32} {nonce : UInt32} {localLinkAddr : MacAddress}
  {localIpv4Addr : Ipv4Addr} {tcpConfig : TcpConfig} {recvQueueThreshold : Nat} {i : Inner} {es : List InnerEvent}

theorem tcp_always_conserved_iff (hpool : pool.Fresh)
    (hp : Admits Inner.step (fun _ e => e.Plain)
      (.new crc nonce pool localLinkAddr localIpv4Addr tcpConfig recvQueueThreshold) es)
    (hr : run Inner.step (.new crc nonce pool localLinkAddr localIpv4Addr tcpConfig recvQueueThreshold) es = some i) :
    Always Inner.step (Inner.PortsConserved pool.ports)
        (.new crc nonce pool localLinkAddr localIpv4Addr tcpConfig recvQueueThreshold) es ↔
      Admits Inner.step (Inner.KeepsPorts pool.ports)
        (.new crc nonce pool localLinkAddr localIpv4Addr tcpConfig recvQueueThreshold) es := by
  have hstart : (Inner.new crc nonce pool localLinkAddr localIpv4Addr tcpConfig recvQueueThreshold).PortsConserved
      pool.ports := by
    refine ⟨.start hpool.nodup fun qd => rfl, fun qd local_ remote hsocket => ?_⟩
    cases hsocket
  refine @always_iff_admits _ _ _ (fun _ => True) _ _ _ (fun i e i' _ h he hs => ⟨?_, fun _ => trivial⟩) _ _ _ trivial
    hstart hp hr
  exact Inner.step_conserved_iff (fun _ => hpool.isPrivate) h he hs

theorem udp_run_goes (u : UdpPeer) (es : List UdpEvent) : ∃ u', run UdpPeer.step u es = some u' := by
  induction es generalizing u with
  | nil => exact ⟨u, rfl⟩
  | cons e es ih =>
    cases e with
    | doSocket qd => exact ih (u.doSocket qd).2
    | call call => exact ih (u.call call).2

theorem udp_always_conserved_iff (hpool : udpPool.Fresh) (es : List UdpEvent) :
    Always UdpPeer.step (UdpPeer.PortsConserved udpPool.ports) (.new udpPool) es ↔
      Admits UdpPeer.step (UdpPeer.KeepsPorts udpPool.ports) (.new udpPool) es := by
  obtain ⟨u', hr⟩ := udp_run_goes (.new udpPool) es
  have hstart : (UdpPeer.new udpPool).PortsConserved udpPool.ports := .start hpool.nodup fun qd => rfl
  have hregistered : (UdpPeer.new udpPool).Registered udpPool.ports := fun addr hbound => by cases hbound
  refine always_iff_admits (fun u e u' hreg h _ hs => ?_) hregistered hstart
    (admits_of_forall (fun _ _ => trivial) _ es : Admits UdpPeer.step (fun _ _ => True) (.new udpPool) es) hr
  exact UdpPeer.step_conserved_iff (fun _ => hpool.isPrivate) hreg h hs

/-- The ports of both pools are conserved in a run exactly if no socket with one of them is closed and no connection
attempt from one of them is found to have failed. -/
theorem ephemeralPorts_conserved_iff (hpool : pool.Fresh)
    (hp : Admits Inner.step (fun _ e => e.Plain)
      (.new crc nonce pool localLinkAddr localIpv4Addr tcpConfig recvQueueThreshold) es)
    (hr : run Inner.step (.new crc nonce pool localLinkAddr localIpv4Addr tcpConfig recvQueueThreshold) es = some i)
    (hudp : udpPool.Fresh) (udpEs : List UdpEvent) :
    (Always Inner.step (Inner.PortsConserved pool.ports)
        (.new crc nonce pool localLinkAddr localIpv4Addr tcpConfig recvQueueThreshold) es ↔
      Admits Inner.step (Inner.KeepsPorts pool.ports)
        (.new crc nonce pool localLinkAddr localIpv4Addr tcpConfig recvQueueThreshold) es) ∧
    (Always UdpPeer.step (UdpPeer.PortsConserved udpPool.ports) (.new udpPool) udpEs ↔
      Admits UdpPeer.step (UdpPeer.KeepsPorts udpPool.ports) (.new udpPool) udpEs) :=
  ⟨tcp_always_conserved_iff hpool hp hr, udp_always_conserved_iff hudp udpEs⟩

end

theorem privatePorts_fresh : (⟨EphemeralPorts.privatePorts⟩ : EphemeralPorts).Fresh :=
  ⟨id, fun _ => List.Perm.refl _, rfl⟩

/-- A port of the pool, a refused bind to another one, and a socket with a well-known port that is closed. -/
def sampleEvents : List InnerEvent :=
  [.doSocket 1, .bind 1 ⟨⟨10, 0, 1, 8⟩, 49152⟩, .bind 1 ⟨⟨10, 0, 1, 8⟩, 49153⟩, .doSocket 2,
    .bind 2 ⟨⟨10, 0, 1, 8⟩, 80⟩, .doClose 2 linkEnv]

def sampleUdpEvents : List UdpEvent :=
  [.doSocket 1, .call (.doBind 1 ⟨⟨10, 0, 1, 8⟩, 49152⟩), .call (.doBind 1 ⟨⟨10, 0, 1, 8⟩, 49153⟩), .doSocket 2,
    .call (.doBind 2 ⟨⟨10, 0, 1, 8⟩, 53⟩), .call (.doClose 2)]

theorem ephemeralPorts_conserved_iff_sample :
    Always Inner.step (Inner.PortsConserved EphemeralPorts.privatePorts) (sampleServer EphemeralPorts.privatePorts)
      sampleEvents ∧
    Always UdpPeer.step (UdpPeer.PortsConserved EphemeralPorts.privatePorts) (.new ⟨EphemeralPorts.privatePorts⟩)
      sampleUdpEvents := by
  have hwellKnown : ∀ port : UInt16, port.toNat < 49152 → port ∉ EphemeralPorts.privatePorts := fun port hlt hmem =>
    absurd (EphemeralPorts.privatePorts_toNat hmem) (Nat.not_le_of_lt hlt)
  have hplain : ∀ e ∈ sampleEvents, e.Plain := by simp [sampleEvents, InnerEvent.Plain]
  obtain ⟨htcp, hudp⟩ := ephemeralPorts_conserved_iff privatePorts_fresh
    (admits_of_mem (fun e he _ => hplain e he) (sampleServer EphemeralPorts.privatePorts)) rfl privatePorts_fresh sampleUdpEvents
  refine ⟨htcp.mpr ?_, hudp.mpr ?_⟩
  · refine ⟨trivial, fun _ h₁ => ⟨trivial, fun _ h₂ => ⟨trivial, fun _ h₃ => ⟨trivial, fun _ h₄ => ⟨trivial, fun _ h₅ => ?_⟩⟩⟩⟩⟩
    refine ⟨fun port hport => ?_, fun _ _ => trivial⟩
    cases h₁
    cases h₂
    cases h₃
    cases h₄
    cases h₅
    have heq : some (80 : UInt16) = some port := hport
    cases heq
    exact hwellKnown 80 (by decide)
  · refine ⟨trivial, fun _ h₁ => ⟨trivial, fun _ h₂ => ⟨trivial, fun _ h₃ => ⟨trivial, fun _ h₄ => ⟨trivial, fun _ h₅ => ?_⟩⟩⟩⟩⟩
    refine ⟨fun port hport => ?_, fun _ _ => trivial⟩
    cases h₁
    cases h₂
    cases h₃
    cases h₄
    cases h₅
    have heq : some (53 : UInt16) = some port := hport
    cases heq
    exact hwellKnown 53 (by decide)

/-- A port of the pool that was bound and closed is lost, and with UDP too. -/
theorem ephemeralPorts_conserved_closed : (⟨EphemeralPorts.privatePorts⟩ : EphemeralPorts).Fresh ∧
    ¬Always Inner.step (Inner.PortsConserved EphemeralPorts.privatePorts) (sampleServer EphemeralPorts.privatePorts)
      [.doSocket 1, .bind 1 ⟨⟨10, 0, 1, 8⟩, 49152⟩, .doClose 1 linkEnv] ∧
    ¬Always UdpPeer.step (UdpPeer.PortsConserved EphemeralPorts.privatePorts) (.new ⟨EphemeralPorts.privatePorts⟩)
      [.doSocket 1, .call (.doBind 1 ⟨⟨10, 0, 1, 8⟩, 49152⟩), .call (.doClose 1)] := by
  have hmem : (49152 : UInt16) ∈ EphemeralPorts.privatePorts :=
    List.mem_map.mpr ⟨49152, List.mem_range'_1.mpr (by decide), rfl⟩
  have hplain : ∀ e ∈ ([.doSocket 1, .bind 1 ⟨⟨10, 0, 1, 8⟩, 49152⟩, .doClose 1 linkEnv] : List InnerEvent), e.Plain := by
    simp [InnerEvent.Plain]
  refine ⟨privatePorts_fresh, fun hall => ?_, fun hall => ?_⟩
  · have hadmits := (tcp_always_conserved_iff privatePorts_fresh
      (admits_of_mem (fun e he _ => hplain e he) (sampleServer EphemeralPorts.privatePorts)) rfl).mp hall
    exact ((hadmits.2 _ rfl).2 _ rfl).1 49152 rfl hmem
  · have hadmits := (udp_always_conserved_iff privatePorts_fresh _).mp hall
    exact ((hadmits.2 _ rfl).2 _ rfl).1 49152 rfl hmem

end Capybara
