import Capybara.MigrationEffects

namespace Capybara

/-- The control block of a ready queue is the client's. -/
def isOf (client : SocketAddrV4) : Except Fail ControlBlock → Bool
  | .ok cb => cb.remote = client
  | .error _ => false

theorem ControlBlock.toState_remote (cb : ControlBlock) {state : ControlBlockState} (h : cb.toState = some state) :
    cb.remote = state.remote := by
  obtain ⟨sender, -, h⟩ := Option.bind_eq_some_iff.mp h
  cases h
  rfl

namespace Inner

/-- How often the connection of a client is at a place. -/
def held (i : Inner) (client : SocketAddrV4) : Spot → Nat
  | .established key => if (i.established.get key).any (fun s => s.cb.remote = client) then 1 else 0
  | .ready local_ => ((i.passive.get local_).map fun passive => passive.ready.ready.countP (isOf client)).getD 0

/-- The state that an event makes a server send away. -/
def outgoing (i : Inner) : InnerEvent → Option ControlBlockState
  | .tcpmig ipv4Hdr buf =>
    match i.tcpmig.receive ipv4Hdr buf with
    | some (.ok (.prepareMigrationAcked qd), tcpmig) =>
      (({ i with tcpmig := tcpmig } : Inner).migrateOutConnection qd).map fun out => out.1.cb
    | _ => none
  | _ => none

/-- The state that an event completes. -/
def incoming (i : Inner) : InnerEvent → Option ControlBlockState
  | .tcpmig ipv4Hdr buf => (Handover.stateOf (i.tcpmig.receive ipv4Hdr buf)).map TcpState.cb
  | _ => none

/-- No connection comes, and nothing of a connection state is sent or taken in. -/
structure Calm (i i' : Inner) : Prop where
  tcpmig : i.tcpmig.Calm i'.tcpmig
  held_le : ∀ client spot, i'.held client spot ≤ i.held client spot

/-- A connection goes from one place to another. -/
structure Moves (i i' : Inner) (client : SocketAddrV4) (source target : Spot) : Prop where
  tcpmig : i.tcpmig.Calm i'.tcpmig
  ne : source ≠ target
  source_le : i'.held client source + 1 ≤ i.held client source
  target_le : i'.held client target ≤ i.held client target + 1
  held_le : ∀ client' spot, (client' = client → spot ≠ target) → i'.held client' spot ≤ i.held client' spot

/-- A connection is taken out, and its state goes out in fragments. -/
structure SendsAway (i i' : Inner) (spot : Spot) (message : TcpMigSegment) (state : TcpState) : Prop where
  tidy : i'.tcpmig.Tidy
  awaited : ∀ client d, i'.tcpmig.awaited client = some d → d = .new ∨ i.tcpmig.awaited client = some d
  spot_le : i'.held state.cb.remote spot + 1 ≤ i.held state.cb.remote spot
  held_le : ∀ client spot', i'.held client spot' ≤ i.held client spot'
  count_lt : message.fragmentCount < 2 ^ 16
  data : message.data = state.encode
  fits : state.cb.Fits
  stage : message.tcpmigHdr.stage = .connectionState
  client : message.tcpmigHdr.client = state.cb.remote
  rt : ∃ p, i.tcpmig.Quiet p ∧ i'.tcpmig.rt = p.rt ++ (List.range message.fragmentCount).map message.fragment

/-- A fragment of a state is stored. -/
structure Stores (i i' : Inner) (hdr : TcpMigHeader) (payload : Buffer) (d d' : TcpMigDefragmenter) : Prop where
  tidy : i.tcpmig.Tidy → i'.tcpmig.Tidy
  quiet : i.tcpmig.Quiet i'.tcpmig
  held_le : ∀ client spot, i'.held client spot ≤ i.held client spot
  stage : hdr.stage = .connectionState
  before : i.tcpmig.awaited hdr.client = some d
  defragment : d.defragment hdr payload = some (none, d')
  after : ∀ client, i'.tcpmig.awaited client = if client = hdr.client then some d' else i.tcpmig.awaited client

/-- A fragment completes a state, and its connection comes in. -/
structure TakesIn (i i' : Inner) (hdr : TcpMigHeader) (payload : Buffer) (d : TcpMigDefragmenter) (state : TcpState)
    (spot : Spot) : Prop where
  tidy : i.tcpmig.Tidy → i'.tcpmig.Tidy
  quiet : i.tcpmig.Quiet i'.tcpmig
  spot_le : i'.held state.cb.remote spot ≤ i.held state.cb.remote spot + 1
  held_le : ∀ client spot', (client = state.cb.remote → spot' ≠ spot) → i'.held client spot' ≤ i.held client spot'
  stage : hdr.stage = .connectionState
  before : i.tcpmig.awaited hdr.client = some d
  defragment : ∃ whole all d', d.defragment hdr payload = some (some (whole, all), d') ∧
    TcpState.deserialize all = some state
  after : ∀ client, i'.tcpmig.awaited client = if client = hdr.client then none else i.tcpmig.awaited client

section

variable {i i' i'' : Inner} {client : SocketAddrV4} {spot : Spot} {key : Endpoints} {local_ : SocketAddrV4}
  {r : Except Fail Unit}

theorem held_of_same (he : i'.established = i.established) (hp : i'.passive = i.passive) (client : SocketAddrV4)
    (spot : Spot) : i'.held client spot = i.held client spot := by
  cases spot with
  | established key => rw [held, he, held]
  | ready local_ => rw [held, hp, held]

theorem held_setEstablished {s s' : EstablishedSocket} (h : i.established.get key = some s)
    (hremote : s'.cb.remote = s.cb.remote) (client : SocketAddrV4) (spot : Spot) :
    (i.setEstablished key s').held client spot = i.held client spot := by
  cases spot with
  | ready local_ => rfl
  | established key' =>
    have hget : (i.setEstablished key s').established.get key' = if key' = key then some s' else i.established.get key' :=
      HashMap.get_insert ..
    rw [held, held, hget]
    split
    next heq => rw [heq, h, Option.any_some, Option.any_some, hremote]
    next => rfl

/-- Of a listening socket only the ready queue counts. -/
theorem held_setPassive (i : Inner) (local_ : SocketAddrV4) (passive : PassiveSocket) (client : SocketAddrV4)
    (spot : Spot) : ({ i with passive := i.passive.insert local_ passive } : Inner).held client spot =
      if spot = .ready local_ then passive.ready.ready.countP (isOf client) else i.held client spot := by
  cases spot with
  | established key => rfl
  | ready local' =>
    have hget : (i.passive.insert local_ passive).get local' = if local' = local_ then some passive else
      i.passive.get local' := HashMap.get_insert ..
    rw [held, hget]
    by_cases heq : local' = local_
    · rw [if_pos heq, if_pos (congrArg _ heq)]
      rfl
    · rw [if_neg heq, if_neg fun hspot => heq (Spot.ready.inj hspot)]
      rfl

theorem Calm.trans (h : i.Calm i') (h' : i'.Calm i'') : i.Calm i'' where
  tcpmig := h.tcpmig.trans h'.tcpmig
  held_le client spot := (h'.held_le client spot).trans (h.held_le client spot)

theorem Calm.of_same (he : i'.established = i.established) (hp : i'.passive = i.passive)
    (ht : i.tcpmig.Calm i'.tcpmig) : i.Calm i' where
  tcpmig := ht
  held_le client spot := (held_of_same he hp client spot).le

theorem Calm.refl (i : Inner) : i.Calm i := .of_same rfl rfl (.refl _)

theorem startMigration_calm {qd : QDesc} (h : i.startMigration key qd = some i') : i.Calm i' := by
  obtain ⟨s, hentry, h⟩ := Option.bind_eq_some_iff.mp h
  obtain ⟨tcpmig, hinitiate, h⟩ := Option.bind_eq_some_iff.mp h
  cases h
  refine ⟨TcpMigPeer.initiateMigration_calm hinitiate, fun client spot => ?_⟩
  have hset := @held_setEstablished i key s { s with cb := s.cb.disableStats } hentry rfl client spot
  exact ((held_of_same rfl rfl client spot).trans hset).le

theorem initiateMigrationByAddr_calm (h : i.initiateMigrationByAddr key = some i') : i.Calm i' := by
  obtain ⟨qd, -, h⟩ := Option.bind_eq_some_iff.mp h
  exact startMigration_calm h

theorem initiateMigrationByQd_calm {qd : QDesc} (h : i.initiateMigrationByQd qd = some (r, i')) : i.Calm i' := by
  unfold initiateMigrationByQd at h
  split at h
  next => cases h; exact .refl i
  next =>
    obtain ⟨_, hstart, h⟩ := Option.bind_eq_some_iff.mp h
    cases h
    exact startMigration_calm hstart
  next => cases h; exact .refl i

theorem resumeStats_calm (h : i.resumeStats key = some i') : i.Calm i' := by
  obtain ⟨s, hentry, h⟩ := Option.bind_eq_some_iff.mp h
  obtain ⟨cb, henable, h⟩ := Option.bind_eq_some_iff.mp h
  cases h
  obtain ⟨recvQueueStats, rpsStats, hsame⟩ := ControlBlock.enableStats_same henable
  exact ⟨.refl _, fun client spot => (held_setEstablished hentry (by rw [hsame]) client spot).le⟩

/-- Only the answer to PREPARE_MIGRATION and a complete state move a connection. -/
theorem actOnStatus_calm {status : TcpmigReceiveStatus} (hack : ∀ qd, status ≠ .prepareMigrationAcked qd)
    (hstate : ∀ state, status ≠ .stateReceived state) (h : i.actOnStatus status = some (r, i')) : i.Calm i' := by
  cases status with
  | ok | migrationCompleted | sentReject | heartbeatResponse =>
    cases h
    exact .of_same rfl rfl (.refl _)
  | rejected local_ remote =>
    obtain ⟨_, hresume, h⟩ := Option.map_eq_some_iff.mp h
    cases h
    exact resumeStats_calm hresume
  | returnedBySwitch local_ remote =>
    obtain ⟨_, hinitiate, h⟩ := Option.map_eq_some_iff.mp h
    cases h
    exact initiateMigrationByAddr_calm hinitiate
  | prepareMigrationAcked qd => exact absurd rfl (hack qd)
  | stateReceived state => exact absurd rfl (hstate state)

theorem migrateOutConnection_held {qd : QDesc} {state : TcpState} (h : i.migrateOutConnection qd = some (state, i')) :
    ∃ key, i'.held state.cb.remote (.established key) + 1 ≤ i.held state.cb.remote (.established key) ∧
      ∀ client spot, i'.held client spot ≤ i.held client spot := by
  obtain ⟨local_, remote, s, cb, -, -, hentry, hstate, rfl, rfl⟩ := migrateOutConnection_eq_some.mp h
  have hget : ∀ key, (i.established.remove (local_, remote)).get key =
      if key = (local_, remote) then none else i.established.get key := fun key => HashMap.get_remove ..
  refine ⟨(local_, remote), ?_, fun client spot => ?_⟩
  · rw [held, held, hget, if_pos rfl, hentry, Option.any_some, s.cb.toState_remote hstate]
    simp
  · cases spot with
    | ready local' => exact Nat.le_refl _
    | established key =>
      rw [held, held, hget]
      split
      next => exact Nat.zero_le _
      next => exact Nat.le_refl _

theorem actOnAck_sendsAway {qd : QDesc} (ht : i.tcpmig.Tidy)
    (h : i.actOnStatus (.prepareMigrationAcked qd) = some (r, i')) :
    ∃ key message state, i.SendsAway i' (.established key) message state ∧
      (i.migrateOutConnection qd).map (fun out => out.1.cb) = some state.cb := by
  obtain ⟨⟨state, i₁⟩, hout, h⟩ := Option.bind_eq_some_iff.mp h
  obtain ⟨p, hsend, h⟩ := Option.bind_eq_some_iff.mp h
  cases h
  rw [migrateOutConnection_tcpmig hout] at hsend
  obtain ⟨key, hspot, hheld⟩ := migrateOutConnection_held hout
  obtain ⟨sending, active, hdr, out, hsent⟩ := TcpMigPeer.sendTcpState_sent hsend
  obtain ⟨hclient, hqueue⟩ := ht _ sending hsent.hget
  have hcb := i.tcpmig.addAppState_cb state
  have hcount := ((sending.message hdr (i.tcpmig.addAppState state).encode).fragments_isSome_iff).mp
    (by rw [hsent.hfragments]; rfl)
  have hfragments := hsent.hfragments.symm.trans (TcpMigSegment.fragments_eq hcount)
  have hafter : ∀ client, p.activeMigrations.get client =
      if client = state.cb.remote then some active else i.tcpmig.activeMigrations.get client := by
    intro client
    rw [hsent.hactive]
    exact HashMap.get_insert ..
  refine ⟨key, sending.message hdr (i.tcpmig.addAppState state).encode, i.tcpmig.addAppState state,
    ⟨fun client a hget => ?_, fun client d hd => .inr ?_, ?_, hheld, hcount, rfl, hsent.hfits, hsent.hstage, ?_, ?_⟩, ?_⟩
  · rw [hafter] at hget
    split at hget
    next heq =>
      cases hget
      exact ⟨hsent.hsame.trans (hclient.trans heq.symm), hsent.hqueue.trans hqueue⟩
    next => exact ht client a hget
  · rw [TcpMigPeer.awaited, hafter] at hd
    split at hd
    next =>
      rw [Option.bind_some, ActiveMigration.awaited, hsent.hlast] at hd
      cases hd
    next => exact hd
  · rw [hcb]
    exact hspot
  · rw [hcb]
    exact hsent.hclient.trans hclient
  · exact ⟨i.tcpmig, .refl _, by rw [hsent.hrt, Option.some.inj hfragments]⟩
  · rw [hout, hcb]
    rfl

theorem SendsAway.of_calm {message : TcpMigSegment} {state : TcpState} (hcalm : i.Calm i')
    (h : i'.SendsAway i'' spot message state) : i.SendsAway i'' spot message state where
  tidy := h.tidy
  awaited client d hd := by
    rcases h.awaited client d hd with hnew | hold
    · exact .inl hnew
    · exact hcalm.tcpmig.awaited client d hold
  spot_le := h.spot_le.trans (hcalm.held_le _ _)
  held_le client spot := (h.held_le client spot).trans (hcalm.held_le client spot)
  count_lt := h.count_lt
  data := h.data
  fits := h.fits
  stage := h.stage
  client := h.client
  rt := by
    obtain ⟨p, hquiet, hrt⟩ := h.rt
    exact ⟨p, hcalm.tcpmig.quiet.trans hquiet, hrt⟩

theorem migrateInConnection_held {state : TcpState} (h : i.migrateInConnection state = some (r, i')) :
    i'.held state.cb.remote (.ready state.cb.local_) ≤ i.held state.cb.remote (.ready state.cb.local_) + 1 ∧
      ∀ client spot, (client = state.cb.remote → spot ≠ .ready state.cb.local_) →
        i'.held client spot ≤ i.held client spot := by
  unfold migrateInConnection at h
  dsimp only at h
  split at h
  next passive hpassive =>
    obtain ⟨passive', hpush, h⟩ := Option.bind_eq_some_iff.mp h
    cases h
    obtain ⟨ready, hready, hpush⟩ := Option.bind_eq_some_iff.mp hpush
    cases hpush
    unfold ReadySockets.pushOk at hready
    split at hready <;> cases hready
    have hlocal : (ControlBlock.fromState i.tcpConfig.ackDelayTimeout state.cb).local_ = state.cb.local_ := rfl
    rw [hlocal] at hpassive ⊢
    have hbefore : ∀ client, i.held client (.ready state.cb.local_) =
        passive.ready.ready.countP (isOf client) := by
      intro client
      rw [held, hpassive]
      rfl
    refine ⟨?_, fun client spot hother => ?_⟩
    · rw [held_setPassive, if_pos rfl, hbefore, List.countP_append]
      exact Nat.add_le_add_left (List.countP_le_length) _
    · rw [held_setPassive]
      split
      next hspot =>
        have hne : ¬state.cb.remote = client := fun heq => hother heq.symm hspot
        rw [hspot, hbefore, List.countP_append, List.countP_singleton]
        have hnot : isOf client (.ok (ControlBlock.fromState i.tcpConfig.ackDelayTimeout state.cb)) = false :=
          decide_eq_false hne
        rw [hnot]
        exact Nat.le_refl _
      next => exact Nat.le_refl _
  next =>
    cases h
    exact ⟨Nat.le_succ _, fun _ _ _ => Nat.le_refl _⟩

theorem held_setPassive_le {passive passive' : PassiveSocket} (hpassive : i.passive.get local_ = some passive)
    (hle : List.Sublist passive'.ready.ready passive.ready.ready) (client : SocketAddrV4) (spot : Spot) :
    ({ i with passive := i.passive.insert local_ passive' } : Inner).held client spot ≤ i.held client spot := by
  rw [held_setPassive]
  split
  next hspot =>
    rw [hspot, held, hpassive]
    exact hle.countP_le
  next => exact Nat.le_refl _

theorem installAccepted_tables {newQd : QDesc} {cb : ControlBlock} (h : i.installAccepted key newQd cb = some i') :
    i'.tcpmig = i.tcpmig ∧ i'.established = i.established.insert key ⟨cb, .top⟩ ∧ i'.passive = i.passive := by
  unfold installAccepted at h
  split at h <;> cases h
  all_goals exact ⟨rfl, rfl, rfl⟩

/-- An accept takes the connection from the ready queue to the entry that it gets. -/
theorem accept_moves {newQd : QDesc} {cb : ControlBlock} {env : Nat → Env} {passive passive' : PassiveSocket}
    {rest : List (Except Fail ControlBlock)} (ht : i.tcpmig.Tidy) (hpassive : i.passive.get local_ = some passive)
    (hready : passive.ready.ready = .ok cb :: rest) (hrest : passive'.ready.ready = rest)
    (h : ({ i with passive := i.passive.insert local_ passive' } : Inner).accept local_ newQd cb env = some i') :
    i.Moves i' cb.remote (.ready local_) (.established (local_, cb.remote)) := by
  obtain ⟨cb₁, hall, h⟩ := Option.bind_eq_some_iff.mp h
  obtain ⟨cb₂, henable, hinstall⟩ := Option.bind_eq_some_iff.mp h
  have hempty : (i.tcpmig.closeActiveMigration cb.remote).1.getD [] = [] := by
    unfold TcpMigPeer.closeActiveMigration
    cases hget : i.tcpmig.activeMigrations.get cb.remote with
    | none => rfl
    | some active => exact (ht _ active hget).2
  have hkept : cb.receiveAll [] env = some cb₁ := by
    rw [← hempty]
    exact hall
  cases hkept
  have hremote : cb₂.remote = cb.remote := by
    obtain ⟨recvQueueStats, rpsStats, hsame⟩ := ControlBlock.enableStats_same (s := ⟨cb, .top⟩) henable
    exact congrArg (fun s => s.cb.remote) hsame
  have hsub : List.Sublist passive'.ready.ready passive.ready.ready := by
    rw [hrest, hready]
    exact List.sublist_cons_self _ _
  obtain ⟨htcpmig, hentries, hsockets⟩ := installAccepted_tables hinstall
  have hplace : ∀ client spot, (client = cb.remote → spot ≠ .established (local_, cb.remote)) →
      i'.held client spot ≤ ({ i with passive := i.passive.insert local_ passive' } : Inner).held client spot := by
    intro client spot hother
    cases spot with
    | ready local' =>
      rw [held, hsockets]
      exact Nat.le_refl _
    | established key =>
      have hget : (i.established.insert (local_, cb.remote) ⟨cb₂, .top⟩).get key =
          if key = (local_, cb.remote) then some ⟨cb₂, .top⟩ else i.established.get key := HashMap.get_insert ..
      rw [held, hentries, hget]
      split
      next heq =>
        have hne : ¬cb₂.remote = client := fun hclient => hother (hclient.symm.trans hremote) (congrArg _ heq)
        rw [Option.any_some, decide_eq_false hne]
        exact Nat.zero_le _
      next => exact Nat.le_refl _
  refine ⟨?_, fun heq => (by cases heq), ?_, ?_, fun client spot hother => ?_⟩
  · rw [htcpmig]
    exact TcpMigPeer.calm_removeActive _ _
  · have hsource := hplace cb.remote (.ready local_) fun _ heq => (by cases heq)
    rw [held_setPassive, if_pos rfl, hrest] at hsource
    have hbefore : i.held cb.remote (.ready local_) = rest.countP (isOf cb.remote) + 1 := by
      rw [held, hpassive, Option.map_some, Option.getD_some, hready]
      exact List.countP_cons_of_pos (decide_eq_true rfl)
    omega
  · rw [held, hentries]
    split <;> omega
  · exact (hplace client spot hother).trans (held_setPassive_le hpassive hsub client spot)

theorem pollAccept_moves {qd newQd : QDesc} {env : Nat → Env} {result : Option (Except Fail QDesc)}
    (ht : i.tcpmig.Tidy) (h : i.pollAccept qd newQd env = some (result, i')) :
    i.Calm i' ∨ ∃ client source target, i.Moves i' client source target := by
  unfold pollAccept at h
  split at h
  next local_ hsocket =>
    obtain ⟨passive, hpassive, h⟩ := Option.bind_eq_some_iff.mp h
    obtain ⟨⟨taken, passive'⟩, hpoll, h⟩ := Option.bind_eq_some_iff.mp h
    obtain ⟨⟨taken', ready⟩, hpoll', hpoll⟩ := Option.bind_eq_some_iff.mp hpoll
    cases hpoll
    unfold ReadySockets.poll at hpoll'
    split at hpoll'
    next =>
      cases hpoll'
      cases h
      exact .inl ⟨.refl _, held_setPassive_le hpassive (.refl _)⟩
    next cb rest hready =>
      split at hpoll' <;> cases hpoll'
      obtain ⟨_, haccept, h⟩ := Option.bind_eq_some_iff.mp h
      cases h
      exact .inr ⟨cb.remote, _, _, accept_moves ht hpassive hready rfl haccept⟩
    next e rest hready =>
      cases hpoll'
      cases h
      refine .inl ⟨.refl _, held_setPassive_le hpassive ?_⟩
      rw [hready]
      exact List.sublist_cons_self _ _
  all_goals
    cases h
    exact .inl (.refl i)

/-- What a server does on a datagram. -/
inductive Reacts (i : Inner) (hdr : TcpMigHeader) (payload : Buffer) (out in_ : Option ControlBlockState)
    (i' : Inner) : Prop
  | calm (hcalm : i.Calm i') (hout : out = none) (hin : in_ = none)
  | sendsAway {spot : Spot} {message : TcpMigSegment} {state : TcpState} (hsent : i.SendsAway i' spot message state)
      (hout : out = some state.cb) (hin : in_ = none)
  | stores {d d' : TcpMigDefragmenter} (hstored : i.Stores i' hdr payload d d') (hout : out = none) (hin : in_ = none)
  | takesIn {d : TcpMigDefragmenter} {state : TcpState} (spot : Spot) (local_ : SocketAddrV4)
      (htaken : i.TakesIn i' hdr payload d state spot) (hout : out = none)
      (hin : in_ = some (state.cb.setLocal local_))

theorem receiveTcpmig_reacts {ipv4Hdr : Ipv4Header} {buf payload : Buffer} {hdr : TcpMigHeader}
    (ht : i.tcpmig.Tidy) (hp : TcpMigHeader.parse ipv4Hdr buf = .ok (hdr, payload))
    (h : i.receiveTcpmig ipv4Hdr buf = some (r, i')) :
    i.Reacts hdr payload (i.outgoing (.tcpmig ipv4Hdr buf)) (i.incoming (.tcpmig ipv4Hdr buf)) i' := by
  obtain ⟨⟨result, tcpmig⟩, hreceive, h⟩ := Option.bind_eq_some_iff.mp h
  have hsame : ∀ client spot, ({ i with tcpmig := tcpmig } : Inner).held client spot = i.held client spot :=
    held_of_same rfl rfl
  cases TcpMigPeer.receive_takes hp hreceive with
  | calm hcalm hr =>
    have hfirst : i.Calm { i with tcpmig := tcpmig } := .of_same rfl rfl hcalm
    have hin : i.incoming (.tcpmig ipv4Hdr buf) = none := by
      rw [incoming, hreceive, Handover.stateOf]
      · rfl
      · exact fun state _ heq => hr state (Prod.mk.inj (Option.some.inj heq)).1
    cases result with
    | error e =>
      cases h
      refine .calm hfirst ?_ hin
      rw [outgoing, hreceive]
    | ok status =>
      by_cases hack : ∃ qd, status = .prepareMigrationAcked qd
      · obtain ⟨qd, rfl⟩ := hack
        obtain ⟨key, message, state, hsent, hstate⟩ :=
          actOnAck_sendsAway (i := { i with tcpmig := tcpmig }) (hcalm.tidy ht) h
        refine .sendsAway (hsent.of_calm hfirst) ?_ hin
        rw [outgoing, hreceive]
        exact hstate
      · have hout : i.outgoing (.tcpmig ipv4Hdr buf) = none := by
          rw [outgoing, hreceive]
          cases status <;> first | rfl | exact absurd ⟨_, rfl⟩ hack
        exact .calm (hfirst.trans (actOnStatus_calm (fun qd heq => hack ⟨qd, heq⟩)
          (fun state heq => hr state (congrArg _ heq)) h)) hout hin
  | @stores d d' hstage hd hdefrag hafter htidy hquiet hr =>
    cases hr
    cases h
    refine .stores ⟨htidy, hquiet, fun client spot => (hsame client spot).le, hstage, hd, hdefrag, hafter⟩ ?_ ?_
    · rw [outgoing, hreceive]
    · rw [incoming, hreceive]
      rfl
  | @completes d d' whole all state state' local_ hstage hd hdefrag hstate hafter htidy hquiet hcb hr =>
    cases hr
    obtain ⟨hspot, hheld⟩ := migrateInConnection_held h
    have htcpmig : i'.tcpmig = tcpmig := migrateInConnection_tcpmig h
    have hremote : state'.cb.remote = state.cb.remote := by rw [hcb]; rfl
    rw [hremote] at hspot hheld
    rw [← htcpmig] at hafter htidy hquiet
    rw [hsame] at hspot
    refine .takesIn (.ready state'.cb.local_) local_ ⟨htidy, hquiet, hspot, fun client spot hother => ?_, hstage, hd,
      ⟨whole, all, d', hdefrag, hstate⟩, hafter⟩ ?_ ?_
    · rw [← hsame]
      exact hheld client spot hother
    · rw [outgoing, hreceive]
    · rw [incoming, hreceive, ← hcb]
      rfl

end

end Inner

end Capybara
