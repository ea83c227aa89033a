import Capybara.PeerMigration

namespace Capybara

/-- A segment with this source is not refused, and no connection or attempt takes it. -/
structure Inner.Unknown (i : Inner) (srcAddr : Ipv4Addr) (key : Endpoints) : Prop where
  source : ¬(srcAddr.isBroadcast ∨ srcAddr.isMulticast ∨ srcAddr.isUnspecified)
  established : i.established.get key = none
  connecting : i.connecting.get key = none

namespace Inner

section

variable {i i' : Inner} {r : Except Fail Unit}

theorem migrateOutConnection_tcpmig {qd : QDesc} {state : TcpState} (h : i.migrateOutConnection qd = some (state, i')) :
    i'.tcpmig = i.tcpmig := by
  unfold migrateOutConnection at h
  split at h
  next =>
    obtain ⟨_, -, h⟩ := Option.bind_eq_some_iff.mp h
    obtain ⟨_, -, h⟩ := Option.bind_eq_some_iff.mp h
    obtain ⟨_, -, h⟩ := Option.bind_eq_some_iff.mp h
    cases h
    rfl
  next => cases h

theorem migrateInConnection_tcpmig {state : TcpState} (h : i.migrateInConnection state = some (r, i')) :
    i'.tcpmig = i.tcpmig := by
  unfold migrateInConnection at h
  dsimp only at h
  split at h
  next =>
    obtain ⟨_, -, h⟩ := Option.bind_eq_some_iff.mp h
    cases h
    rfl
  next =>
    cases h
    rfl

/-- Segments for nobody known are kept if their source has a migration; all others pass the migrations by. -/
theorem receive_tcpmig {srcAddr dstAddr : Ipv4Addr} {header : TcpHeader} {data : Buffer} {env : Env}
    (h : i.receive srcAddr dstAddr header data env = some (r, i')) :
    i'.tcpmig = i.tcpmig ∧ (¬i.Unknown srcAddr (⟨dstAddr, header.dstPort⟩, ⟨srcAddr, header.srcPort⟩) ∨
        i.tcpmig.tryBufferPacket ⟨srcAddr, header.srcPort⟩ header data = none) ∨
      i.Unknown srcAddr (⟨dstAddr, header.dstPort⟩, ⟨srcAddr, header.srcPort⟩) ∧
        i.tcpmig.tryBufferPacket ⟨srcAddr, header.srcPort⟩ header data = some i'.tcpmig := by
  unfold receive at h
  dsimp only at h
  split at h
  next hsource =>
    cases h
    exact .inl ⟨rfl, .inl fun hunknown => hunknown.source hsource⟩
  next hsource =>
    split at h
    next s hentry =>
      obtain ⟨_, -, h⟩ := Option.bind_eq_some_iff.mp h
      cases h
      exact .inl ⟨rfl, .inl fun hunknown => by cases hentry.symm.trans hunknown.established⟩
    next hestablished =>
      split at h
      next s hentry =>
        obtain ⟨_, -, h⟩ := Option.bind_eq_some_iff.mp h
        cases h
        exact .inl ⟨rfl, .inl fun hunknown => by cases hentry.symm.trans hunknown.connecting⟩
      next hconnecting =>
        unfold receiveUnknown at h
        split at h
        next tcpmig hbuffered =>
          cases h
          exact .inr ⟨⟨hsource, hestablished, hconnecting⟩, hbuffered⟩
        next hnone =>
          split at h
          next =>
            obtain ⟨_, -, h⟩ := Option.bind_eq_some_iff.mp h
            cases h
            exact .inl ⟨rfl, .inr hnone⟩
          next =>
            unfold sendRst at h
            split at h <;> cases h
            all_goals exact .inl ⟨rfl, .inr hnone⟩

theorem bind_activeMigrations (qd : QDesc) (addr : SocketAddrV4) :
    (i.bind qd addr).2.tcpmig.activeMigrations = i.tcpmig.activeMigrations := by
  unfold Inner.bind
  split
  next => rfl
  next =>
    split
    next => rfl
    next =>
      dsimp only
      split
      next => rfl
      all_goals
        unfold rollbackPort
        split <;> rfl

theorem listen_tcpmig (qd : QDesc) (backlog : Nat) (nonce : UInt32) : (i.listen qd backlog nonce).2.tcpmig = i.tcpmig := by
  unfold listen
  split
  next => split <;> rfl
  all_goals rfl

theorem doSocket_tcpmig (qd : QDesc) : (i.doSocket qd).2.tcpmig = i.tcpmig := by
  unfold doSocket
  split <;> rfl

theorem startConnecting_tcpmig {qd : QDesc} {local_ remote : SocketAddrV4}
    (h : i.startConnecting qd local_ remote = some (r, i')) : i'.tcpmig = i.tcpmig := by
  obtain ⟨_, -, h⟩ := Option.bind_eq_some_iff.mp h
  dsimp only at h
  split at h <;> cases h
  all_goals rfl

theorem connect_tcpmig {qd : QDesc} {remote : SocketAddrV4} (h : i.connect qd remote = some (r, i')) :
    i'.tcpmig = i.tcpmig := by
  unfold connect at h
  split at h
  next =>
    split at h
    next => cases h; rfl
    next port ports _ => exact @startConnecting_tcpmig { i with ephemeralPorts := ports } _ _ _ _ _ h
  next => exact startConnecting_tcpmig h
  all_goals
    cases h
    rfl

theorem pollConnectFinished_tcpmig {qd : QDesc} {result : Option (Except Fail Unit)}
    (h : i.pollConnectFinished qd = some (result, i')) : i'.tcpmig = i.tcpmig := by
  unfold pollConnectFinished at h
  split at h
  next =>
    split at h
    next => cases h; rfl
    next =>
      split at h
      next => cases h; rfl
      next =>
        split at h
        next => cases h; rfl
        next =>
          obtain ⟨_, hinstall, h⟩ := Option.bind_eq_some_iff.mp h
          cases h
          unfold installConnected at hinstall
          split at hinstall <;> cases hinstall
          rfl
  all_goals
    cases h
    rfl

theorem pollRecv_tcpmig (qd : QDesc) : (i.pollRecv qd).2.tcpmig = i.tcpmig := by
  unfold pollRecv
  split
  next => split <;> rfl
  all_goals rfl

theorem send_tcpmig {qd : QDesc} {buf : Buffer} {env : Env} (h : i.send qd buf env = some (r, i')) :
    i'.tcpmig = i.tcpmig := by
  unfold send at h
  split at h
  next =>
    split at h
    next =>
      obtain ⟨_, -, h⟩ := Option.bind_eq_some_iff.mp h
      cases h
      rfl
    next => cases h; rfl
  all_goals
    cases h
    rfl

theorem doClose_tcpmig {qd : QDesc} {env : Env} (h : i.doClose qd env = some (r, i')) : i'.tcpmig = i.tcpmig := by
  unfold doClose at h
  dsimp only at h
  split at h
  next =>
    split at h
    next =>
      obtain ⟨_, -, h⟩ := Option.bind_eq_some_iff.mp h
      cases h
      rfl
    next => cases h; rfl
  all_goals
    cases h
    rfl

theorem runTask_tcpmig {key : Endpoints} {task : SocketTask} {env : Env} (h : i.runTask key task env = some i') :
    i'.tcpmig = i.tcpmig := by
  unfold runTask at h
  split at h
  next => cases h; rfl
  next =>
    obtain ⟨_, -, h⟩ := Option.bind_eq_some_iff.mp h
    cases h
    rfl

theorem handshakeTimeout_tcpmig (key : Endpoints) : (i.handshakeTimeout key).tcpmig = i.tcpmig := by
  unfold handshakeTimeout
  split <;> rfl

theorem registerApplicationState_activeMigrations {qd : QDesc} {state : ApplicationState}
    (h : i.registerApplicationState qd state = some i') : i'.tcpmig.activeMigrations = i.tcpmig.activeMigrations := by
  obtain ⟨_, -, h⟩ := Option.bind_eq_some_iff.mp h
  cases h
  rfl

theorem getMigratedApplicationState_activeMigrations {decode : Buffer → ApplicationState} {qd : QDesc}
    {state : Option ApplicationState} (h : i.getMigratedApplicationState decode qd = some (state, i')) :
    i'.tcpmig.activeMigrations = i.tcpmig.activeMigrations := by
  obtain ⟨_, -, h⟩ := Option.bind_eq_some_iff.mp h
  cases h
  dsimp only
  split <;> rfl

/-- What an accept takes from the ready queue, and what it does with it. -/
theorem pollAccept_takes {qd newQd : QDesc} {env : Nat → Env} {local_ : SocketAddrV4} {passive : PassiveSocket}
    {cb : ControlBlock} {rest : List (Except Fail ControlBlock)} {result : Option (Except Fail QDesc)}
    (hsocket : i.sockets.get qd = some (.listening local_)) (hpassive : i.passive.get local_ = some passive)
    (hready : passive.ready.ready = .ok cb :: rest) (h : i.pollAccept qd newQd env = some (result, i')) :
    result = some (.ok newQd) ∧ ∃ passive',
      ({ i with passive := i.passive.insert local_ passive' } : Inner).accept local_ newQd cb env = some i' := by
  rw [pollAccept, hsocket] at h
  obtain ⟨_, hsame, h⟩ := Option.bind_eq_some_iff.mp h
  cases hpassive.symm.trans hsame
  obtain ⟨⟨taken, passive'⟩, hpoll, h⟩ := Option.bind_eq_some_iff.mp h
  obtain ⟨⟨taken', ready⟩, hpoll', hpoll⟩ := Option.bind_eq_some_iff.mp hpoll
  cases hpoll
  rw [ReadySockets.poll, hready] at hpoll'
  dsimp only at hpoll'
  split at hpoll' <;> cases hpoll'
  obtain ⟨_, haccept, h⟩ := Option.bind_eq_some_iff.mp h
  cases h
  exact ⟨rfl, _, haccept⟩

/-- An accept ends the migration of the client that it takes a connection of. -/
theorem pollAccept_tcpmig {qd newQd : QDesc} {env : Nat → Env} {result : Option (Except Fail QDesc)}
    (h : i.pollAccept qd newQd env = some (result, i')) :
    i'.tcpmig = i.tcpmig ∨ ∃ local_ passive cb rest, i.sockets.get qd = some (.listening local_) ∧
      i.passive.get local_ = some passive ∧ passive.ready.ready = .ok cb :: rest ∧
      i'.tcpmig = i.tcpmig.removeActive cb.remote := by
  unfold pollAccept at h
  split at h
  next local_ hsocket =>
    obtain ⟨passive, hpassive, h⟩ := Option.bind_eq_some_iff.mp h
    obtain ⟨⟨taken, passive'⟩, hpoll, h⟩ := Option.bind_eq_some_iff.mp h
    obtain ⟨⟨taken', ready⟩, hpoll', hpoll⟩ := Option.bind_eq_some_iff.mp hpoll
    cases hpoll
    unfold ReadySockets.poll at hpoll'
    split at hpoll'
    next =>
      cases hpoll'
      cases h
      exact .inl rfl
    next cb rest hready =>
      split at hpoll' <;> cases hpoll'
      obtain ⟨_, haccept, h⟩ := Option.bind_eq_some_iff.mp h
      cases h
      obtain ⟨_, -, haccept⟩ := Option.bind_eq_some_iff.mp haccept
      obtain ⟨_, -, haccept⟩ := Option.bind_eq_some_iff.mp haccept
      unfold installAccepted at haccept
      split at haccept <;> cases haccept
      all_goals exact .inr ⟨local_, passive, cb, rest, hsocket, hpassive, hready, rfl⟩
    next =>
      cases hpoll'
      cases h
      exact .inl rfl
  all_goals
    cases h
    exact .inl rfl

end

end Inner

end Capybara
