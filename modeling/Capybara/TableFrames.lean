import Capybara.PeerMigration

namespace Capybara

namespace Inner

/-- The descriptors, the pool and the keys of the tables of connections are as they were. -/
structure Undisturbed (i i' : Inner) : Prop where
  sockets : i'.sockets = i.sockets
  qds : i'.qds = i.qds
  ephemeralPorts : i'.ephemeralPorts = i.ephemeralPorts
  connecting : ∀ key, (i'.connecting.get key).isSome = (i.connecting.get key).isSome
  established : ∀ key, (i'.established.get key).isSome = (i.established.get key).isSome

section

variable {i i' i'' : Inner} {qd : QDesc} {key : Endpoints} {remote : SocketAddrV4}

theorem Undisturbed.refl (i : Inner) : i.Undisturbed i := ⟨rfl, rfl, rfl, fun _ => rfl, fun _ => rfl⟩

theorem Undisturbed.trans (h : i.Undisturbed i') (h' : i'.Undisturbed i'') : i.Undisturbed i'' where
  sockets := h'.sockets.trans h.sockets
  qds := h'.qds.trans h.qds
  ephemeralPorts := h'.ephemeralPorts.trans h.ephemeralPorts
  connecting key := (h'.connecting key).trans (h.connecting key)
  established key := (h'.established key).trans (h.established key)

theorem isSome_insert {V : Type} {m : HashMap Endpoints V} {v v' : V} (h : m.get key = some v) (key' : Endpoints) :
    ((m.insert key v').get key').isSome = (m.get key').isSome := by
  rw [HashMap.get_insert]
  split
  next heq => rw [heq, h]; rfl
  next => rfl

theorem Undisturbed.of_established {s s' : EstablishedSocket} (h : i.established.get key = some s) :
    i.Undisturbed (i.setEstablished key s') :=
  ⟨rfl, rfl, rfl, fun _ => rfl, isSome_insert h⟩

theorem Undisturbed.of_connecting {s s' : ActiveOpenSocket} (h : i.connecting.get key = some s) :
    i.Undisturbed { i with connecting := i.connecting.insert key s' } :=
  ⟨rfl, rfl, rfl, isSome_insert h, fun _ => rfl⟩

/-- Only the migrations, the listeners or what was sent change. -/
theorem Undisturbed.of_other (hs : i'.sockets = i.sockets) (hq : i'.qds = i.qds)
    (hp : i'.ephemeralPorts = i.ephemeralPorts) (hc : i'.connecting = i.connecting)
    (he : i'.established = i.established) : i.Undisturbed i' :=
  ⟨hs, hq, hp, fun _ => by rw [hc], fun _ => by rw [he]⟩

theorem receiveUnknown_undisturbed {local_ : SocketAddrV4} {header : TcpHeader} {data : Buffer} {env : Env}
    {r : Except Fail Unit} (h : i.receiveUnknown local_ remote header data env = some (r, i')) : i.Undisturbed i' := by
  unfold receiveUnknown at h
  split at h
  next => cases h; exact .of_other rfl rfl rfl rfl rfl
  next =>
    split at h
    next =>
      obtain ⟨⟨result, passive⟩, -, h⟩ := Option.bind_eq_some_iff.mp h
      cases h
      exact .of_other rfl rfl rfl rfl rfl
    next =>
      unfold sendRst at h
      split at h <;> cases h
      all_goals exact .of_other rfl rfl rfl rfl rfl

theorem receive_undisturbed {srcAddr dstAddr : Ipv4Addr} {header : TcpHeader} {data : Buffer} {env : Env}
    {r : Except Fail Unit} (h : i.receive srcAddr dstAddr header data env = some (r, i')) : i.Undisturbed i' := by
  unfold receive at h
  dsimp only at h
  split at h
  next => cases h; exact .refl i
  next =>
    split at h
    next s hentry =>
      obtain ⟨s', -, h⟩ := Option.bind_eq_some_iff.mp h
      cases h
      exact .of_established hentry
    next =>
      split at h
      next s hentry =>
        obtain ⟨s', -, h⟩ := Option.bind_eq_some_iff.mp h
        cases h
        exact .of_connecting hentry
      next => exact receiveUnknown_undisturbed h

theorem pollRecv_undisturbed (i : Inner) (qd : QDesc) : i.Undisturbed (i.pollRecv qd).2 := by
  unfold pollRecv
  split
  next =>
    split
    next s hentry => exact .of_established hentry
    next => exact .refl i
  all_goals exact .refl i

theorem send_undisturbed {buf : Buffer} {env : Env} {r : Except Fail Unit} (h : i.send qd buf env = some (r, i')) :
    i.Undisturbed i' := by
  unfold send at h
  split at h
  next =>
    split at h
    next s hentry =>
      obtain ⟨⟨result, cb⟩, -, h⟩ := Option.bind_eq_some_iff.mp h
      cases h
      exact .of_established hentry
    next => cases h; exact .refl i
  all_goals
    cases h
    exact .refl i

theorem runTask_undisturbed {task : SocketTask} {env : Env} (h : i.runTask key task env = some i') :
    i.Undisturbed i' := by
  unfold runTask at h
  split at h
  next => cases h; exact .refl i
  next s hentry =>
    obtain ⟨s', -, h⟩ := Option.bind_eq_some_iff.mp h
    cases h
    exact .of_established hentry

theorem handshakeTimeout_undisturbed (i : Inner) (key : Endpoints) : i.Undisturbed (i.handshakeTimeout key) := by
  unfold handshakeTimeout
  split
  next => exact .refl i
  next s hentry => exact .of_connecting hentry

theorem registerApplicationState_undisturbed {state : ApplicationState}
    (h : i.registerApplicationState qd state = some i') : i.Undisturbed i' := by
  obtain ⟨remote, -, h⟩ := Option.bind_eq_some_iff.mp h
  cases h
  exact .of_other rfl rfl rfl rfl rfl

theorem getMigratedApplicationState_undisturbed {decode : Buffer → ApplicationState} {r : Option ApplicationState}
    (h : i.getMigratedApplicationState decode qd = some (r, i')) : i.Undisturbed i' := by
  obtain ⟨remote, -, h⟩ := Option.bind_eq_some_iff.mp h
  cases h
  exact .of_other rfl rfl rfl rfl rfl

theorem startMigration_undisturbed (h : i.startMigration key qd = some i') : i.Undisturbed i' := by
  obtain ⟨s, hentry, h⟩ := Option.bind_eq_some_iff.mp h
  obtain ⟨tcpmig, -, h⟩ := Option.bind_eq_some_iff.mp h
  cases h
  exact Undisturbed.trans (.of_established hentry) (.of_other rfl rfl rfl rfl rfl)

theorem initiateMigrationByAddr_undisturbed (h : i.initiateMigrationByAddr key = some i') : i.Undisturbed i' := by
  obtain ⟨qd, -, h⟩ := Option.bind_eq_some_iff.mp h
  exact startMigration_undisturbed h

theorem initiateMigrationByQd_undisturbed {r : Except Fail Unit} (h : i.initiateMigrationByQd qd = some (r, i')) :
    i.Undisturbed i' := by
  unfold initiateMigrationByQd at h
  split at h
  next => cases h; exact .refl i
  next =>
    obtain ⟨i₁, hstart, h⟩ := Option.bind_eq_some_iff.mp h
    cases h
    exact startMigration_undisturbed hstart
  next => cases h; exact .refl i

theorem resumeStats_undisturbed (h : i.resumeStats key = some i') : i.Undisturbed i' := by
  obtain ⟨s, hentry, h⟩ := Option.bind_eq_some_iff.mp h
  obtain ⟨cb, -, h⟩ := Option.bind_eq_some_iff.mp h
  cases h
  exact .of_established hentry

theorem migrateInConnection_undisturbed {state : TcpState} {r : Except Fail Unit}
    (h : i.migrateInConnection state = some (r, i')) : i.Undisturbed i' := by
  unfold migrateInConnection at h
  dsimp only at h
  split at h
  next =>
    obtain ⟨passive, -, h⟩ := Option.bind_eq_some_iff.mp h
    cases h
    exact .of_other rfl rfl rfl rfl rfl
  next => cases h; exact .refl i

/-- What a datagram of a migration does to the tables of connections: nothing, or one connection leaves them. -/
inductive Migrates (i i' : Inner) : Prop
  | stays (hsame : i.Undisturbed i')
  | leaves {qd : QDesc} {local_ remote : SocketAddrV4} (hsocket : i.sockets.get qd = some (.established local_ remote))
      (hsockets : i'.sockets = i.sockets.insert qd (.migratedOut local_ remote))
      (hqds : i'.qds = i.qds.remove (local_, remote))
      (hestablished : i'.established = i.established.remove (local_, remote))

theorem receiveTcpmig_migrates {ipv4Hdr : Ipv4Header} {buf : Buffer} {r : Except Fail Unit}
    (h : i.receiveTcpmig ipv4Hdr buf = some (r, i')) : i.Migrates i' := by
  obtain ⟨⟨result, tcpmig⟩, -, h⟩ := Option.bind_eq_some_iff.mp h
  have hfirst : i.Undisturbed { i with tcpmig := tcpmig } := .of_other rfl rfl rfl rfl rfl
  cases result with
  | error e => cases h; exact .stays hfirst
  | ok status =>
    cases status with
    | ok | migrationCompleted | sentReject => cases h; exact .stays hfirst
    | heartbeatResponse sum => cases h; exact .stays (hfirst.trans (.of_other rfl rfl rfl rfl rfl))
    | rejected local_ remote =>
      obtain ⟨i₁, hresume, h⟩ := Option.map_eq_some_iff.mp h
      cases h
      exact .stays (hfirst.trans (resumeStats_undisturbed hresume))
    | returnedBySwitch local_ remote =>
      obtain ⟨i₁, hagain, h⟩ := Option.map_eq_some_iff.mp h
      cases h
      exact .stays (hfirst.trans (initiateMigrationByAddr_undisturbed hagain))
    | stateReceived state => exact .stays (hfirst.trans (migrateInConnection_undisturbed h))
    | prepareMigrationAcked qd =>
      obtain ⟨⟨state, i₁⟩, hout, h⟩ := Option.bind_eq_some_iff.mp h
      obtain ⟨tcpmig', -, h⟩ := Option.bind_eq_some_iff.mp h
      cases h
      unfold migrateOutConnection at hout
      split at hout
      next local_ remote hsocket =>
        obtain ⟨_, -, hout⟩ := Option.bind_eq_some_iff.mp hout
        obtain ⟨_, -, hout⟩ := Option.bind_eq_some_iff.mp hout
        obtain ⟨_, -, hout⟩ := Option.bind_eq_some_iff.mp hout
        cases hout
        exact .leaves hsocket rfl rfl rfl
      next => cases hout

/-- What a poll of a connection attempt does: nothing, or the attempt is over and forgotten, and unless it failed the
socket has a connection now. -/
inductive Finishes (i : Inner) (qd : QDesc) (i' : Inner) : Prop
  | waits (hsame : i.Undisturbed i') (hgoes : ∀ local_ remote s, i.sockets.get qd = some (.connecting local_ remote) →
      i.connecting.get (local_, remote) = some s → s.result = none)
  | fails {local_ remote : SocketAddrV4} {s : ActiveOpenSocket} {e : Fail}
      (hsocket : i.sockets.get qd = some (.connecting local_ remote))
      (hentry : i.connecting.get (local_, remote) = some s) (hresult : s.result = some (.error e))
      (hafter : i' = { i with connecting := i.connecting.remove (local_, remote) })
  | connects {local_ remote : SocketAddrV4} {s : ActiveOpenSocket} {cb : ControlBlock}
      (hsocket : i.sockets.get qd = some (.connecting local_ remote))
      (hentry : i.connecting.get (local_, remote) = some s) (hresult : s.result = some (.ok cb))
      (hports : i'.ephemeralPorts = i.ephemeralPorts) (hqds : i'.qds = i.qds)
      (hsockets : i'.sockets = i.sockets.insert qd (.established local_ remote))
      (hconnecting : i'.connecting = i.connecting.remove (local_, remote))

theorem pollConnectFinished_finishes {r : Option (Except Fail Unit)} (h : i.pollConnectFinished qd = some (r, i')) :
    i.Finishes qd i' := by
  have hself : i.Undisturbed i := .refl i
  unfold pollConnectFinished at h
  split at h
  next local_ remote hsocket =>
    split at h
    next hnone =>
      cases h
      refine .waits hself fun local₁ remote₁ s hsocket₁ hentry => ?_
      cases hsocket.symm.trans hsocket₁
      cases hnone.symm.trans hentry
    next s hentry =>
      dsimp only [ActiveOpenSocket.pollResult] at h
      cases hresult : s.result with
      | none =>
        rw [hresult] at h
        cases h
        refine .waits (.of_connecting hentry) fun local₁ remote₁ s₁ hsocket₁ hentry₁ => ?_
        · cases hsocket.symm.trans hsocket₁
          cases hentry.symm.trans hentry₁
          exact hresult
      | some result =>
        rw [hresult] at h
        cases result with
        | error e =>
          cases h
          exact .fails hsocket hentry hresult rfl
        | ok cb =>
          obtain ⟨i₁, hinstall, hi⟩ := Option.bind_eq_some_iff.mp h
          unfold installConnected at hinstall
          split at hinstall
          next => cases hinstall
          next =>
            cases hinstall
            cases hi
            exact .connects hsocket hentry hresult rfl rfl rfl rfl
  next socket hother hsocket =>
    cases h
    refine .waits hself fun local₁ remote₁ s hsocket₁ => ?_
    exact absurd (Option.some.inj (hsocket.symm.trans hsocket₁)) (hother local₁ remote₁)
  next hnone =>
    cases h
    refine .waits hself fun local₁ remote₁ s hsocket₁ => ?_
    cases hnone.symm.trans hsocket₁

/-- What a close does to the tables, whatever it returns: only the descriptor goes away. -/
structure Closes (i : Inner) (qd : QDesc) (i' : Inner) : Prop where
  ephemeralPorts : i'.ephemeralPorts = i.ephemeralPorts
  connecting : i'.connecting = i.connecting
  qds : i'.qds = i.qds
  sockets : ∀ qd', i'.sockets.get qd' = if qd' = qd then none else i.sockets.get qd'
  established : ∀ key, (i'.established.get key).isSome = (i.established.get key).isSome

theorem doClose_closes {env : Env} {r : Except Fail Unit} (h : i.doClose qd env = some (r, i')) : i.Closes qd i' := by
  have hremoved : ∀ qd', (i.sockets.remove qd).get qd' = if qd' = qd then none else i.sockets.get qd' :=
    fun qd' => HashMap.get_remove _ _ _
  unfold doClose at h
  dsimp only at h
  split at h
  next =>
    split at h
    next s hentry =>
      obtain ⟨⟨result, cb⟩, -, h⟩ := Option.bind_eq_some_iff.mp h
      cases h
      exact ⟨rfl, rfl, rfl, hremoved, isSome_insert hentry⟩
    next =>
      cases h
      exact ⟨rfl, rfl, rfl, hremoved, fun _ => rfl⟩
  next =>
    cases h
    exact ⟨rfl, rfl, rfl, hremoved, fun _ => rfl⟩
  next hnone =>
    cases h
    refine ⟨rfl, rfl, rfl, fun qd' => ?_, fun _ => rfl⟩
    split
    next heq => rw [heq, hnone]
    next => rfl

/-- What a poll of an accept does to the tables: nothing, or a new connection enters all of them. -/
inductive Accepts (i : Inner) (newQd : QDesc) (i' : Inner) : Prop
  | stays (hsame : i.Undisturbed i')
  | installs {key : Endpoints} {cb : ControlBlock}
      (hfree : ∀ local_ remote, i.sockets.get newQd ≠ some (.established local_ remote))
      (hqd : i.qds.get key = none) (hnew : i.established.get key = none)
      (hsockets : i'.sockets = i.sockets.insert newQd (.established key.1 key.2))
      (hqds : i'.qds = i.qds.insert key newQd) (hestablished : i'.established = i.established.insert key ⟨cb, .top⟩)

theorem pollAccept_accepts {newQd : QDesc} {env : Nat → Env} {r : Option (Except Fail QDesc)}
    (h : i.pollAccept qd newQd env = some (r, i')) : i.Accepts newQd i' := by
  unfold pollAccept at h
  split at h
  next local_ hsocket =>
    obtain ⟨passive, -, h⟩ := Option.bind_eq_some_iff.mp h
    obtain ⟨⟨result, passive'⟩, -, h⟩ := Option.bind_eq_some_iff.mp h
    dsimp only at h
    split at h
    next => cases h; exact .stays (.of_other rfl rfl rfl rfl rfl)
    next => cases h; exact .stays (.of_other rfl rfl rfl rfl rfl)
    next cb =>
      obtain ⟨i₁, haccept, h⟩ := Option.bind_eq_some_iff.mp h
      cases h
      obtain ⟨cb₁, -, haccept⟩ := Option.bind_eq_some_iff.mp haccept
      obtain ⟨cb₂, -, haccept⟩ := Option.bind_eq_some_iff.mp haccept
      unfold installAccepted at haccept
      split at haccept
      next hnone hqd hnew =>
        cases haccept
        exact .installs (fun l r heq => by cases hnone.symm.trans heq) hqd hnew rfl rfl rfl
      next hout hqd hnew =>
        cases haccept
        exact .installs (fun l r heq => by cases hout.symm.trans heq) hqd hnew rfl rfl rfl
      next => cases haccept
  next => cases h; exact .stays (.refl i)
  next => cases h; exact .stays (.refl i)

end

end Inner

end Capybara
