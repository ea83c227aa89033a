import Capybara.ActiveOpen

namespace Capybara

/-- Our window scale and the one of the peer: both are 0 if the peer did not send one. -/
def TcpConfig.scales (config : TcpConfig) (header : TcpHeader) : Nat × Nat :=
  match header.announced.1 with
  | some w => (config.windowScale.toNat, w.toNat)
  | none => (0, 0)

/-- Both windows of a control block are the fields shifted by the scales, that of the peer by at most 14. -/
structure WindowsAgree (config : TcpConfig) (header : TcpHeader) (cb : ControlBlock) : Prop where
  receiveBufferSize : cb.receiveBufferSize.toNat = config.receiveWindowSize.toNat * 2 ^ (config.scales header).1
  sendWindow : cb.sender.sendWindow.toNat = header.windowSize.toNat * 2 ^ min (config.scales header).2 14

/-- What the passive open can shift: the window of the peer stays below 2^16, or it is 0 and the scale 15. -/
def TcpConfig.PassiveFits (config : TcpConfig) (header : TcpHeader) : Prop :=
  ((config.scales header).2 ≤ 14 ∧ header.windowSize.toNat * 2 ^ (config.scales header).2 < 2 ^ 16) ∨
    ((config.scales header).2 = 15 ∧ header.windowSize.toNat = 0)

/-- What the active open can shift: both windows stay below 2^16, and the scale of the peer is at most 14. -/
def TcpConfig.ActiveFits (config : TcpConfig) (header : TcpHeader) : Prop :=
  (config.scales header).2 ≤ 14 ∧ config.receiveWindowSize.toNat * 2 ^ (config.scales header).1 < 2 ^ 16 ∧
    header.windowSize.toNat * 2 ^ (config.scales header).2 < 2 ^ 16

instance (config : TcpConfig) (header : TcpHeader) : Decidable (config.PassiveFits header) :=
  inferInstanceAs (Decidable (_ ∨ _))

instance (config : TcpConfig) (header : TcpHeader) : Decidable (config.ActiveFits header) :=
  inferInstanceAs (Decidable (_ ∧ _))

/-- The handshake of an endpoint has begun with this SYN and waits for the ACK. -/
structure PassiveSocket.Pending (p : PassiveSocket) (remote : SocketAddrV4) (syn : TcpHeader) (accept : InflightAccept) :
    Prop where
  unready : remote ∉ p.ready.endpoints
  entry : p.inflight.get remote = some accept
  window : accept.headerWindowSize = syn.windowSize
  scale : accept.remoteWindowScale = syn.announced.1
  mss : accept.mss = syn.announced.2

/-- The ACK completes the passive open, with the windows of the SYN. -/
def PassiveSocket.Completes (p : PassiveSocket) (srcAddr : Ipv4Addr) (syn ack : TcpHeader) : Prop :=
  ∃ p' cb, p.receive srcAddr ack = some (.ok (), p') ∧ p'.ready.ready = p.ready.ready ++ [.ok cb] ∧
    WindowsAgree p.tcpConfig syn cb

/-- The SYN+ACK completes the active open, with its windows. -/
def ActiveOpenSocket.Completes (s : ActiveOpenSocket) (header : TcpHeader) (remoteLinkAddr : Option MacAddress) : Prop :=
  ∃ s' cb, s.receive header remoteLinkAddr = some s' ∧ s'.result = some (.ok cb) ∧ WindowsAgree s.tcpConfig header cb

/-- A SYN+ACK for our SYN. -/
structure ActiveOpenSocket.Answered (s : ActiveOpenSocket) (header : TcpHeader) : Prop where
  ack : header.ack = true
  ackNum : header.ackNum = s.localIsn + SeqNumber.ofNat 1
  noRst : header.rst = false
  syn : header.syn = true

section

variable {config : TcpConfig} {header syn ack : TcpHeader} {accept : InflightAccept} {local_ remote : SocketAddrV4}
  {p p' : PassiveSocket} {srcAddr : Ipv4Addr}

/-- A SYN from an endpoint that is not known yet leaves a handshake that waits for its ACK. -/
theorem receive_pending (hready : ⟨srcAddr, syn.srcPort⟩ ∉ p.ready.endpoints)
    (hnew : p.inflight.get ⟨srcAddr, syn.srcPort⟩ = none) (h : p.receive srcAddr syn = some (.ok (), p')) :
    ∃ accept, p'.Pending ⟨srcAddr, syn.srcPort⟩ syn accept := by
  unfold PassiveSocket.receive at h
  dsimp only at h
  rw [if_neg hready, hnew] at h
  dsimp only at h
  unfold PassiveSocket.receiveSyn at h
  split at h
  next => cases h
  next =>
    split at h
    next => cases h
    next =>
      obtain ⟨⟨isn, isnGenerator⟩, -, h⟩ := Option.bind_eq_some_iff.mp h
      cases h
      exact ⟨_, hready, by rw [HashMap.get_insert, if_pos rfl], rfl, rfl, rfl⟩

theorem checkedShl_of_lt {width value shift : Nat} (hs : shift < width) (hv : value * 2 ^ shift < 2 ^ width) :
    checkedShl width value shift = some (value * 2 ^ shift) := by
  rw [checkedShl, if_pos hs, Nat.mod_eq_of_lt hv]

/-- A shifted window field is right exactly if no bit is lost, or if it is 0 and the scale one too large. -/
theorem checkedShl_window {value shift : Nat} (hv : value < 2 ^ 16) :
    checkedShl 16 value shift = some (value * 2 ^ min shift 14) ↔
      (shift ≤ 14 ∧ value * 2 ^ shift < 2 ^ 16) ∨ (shift = 15 ∧ value = 0) := by
  unfold checkedShl
  by_cases hs : shift < 16
  · rw [if_pos hs, Option.some.injEq]
    have hmod := Nat.mod_lt (value * 2 ^ shift) (show 0 < 2 ^ 16 by decide)
    by_cases hle : shift ≤ 14
    · rw [Nat.min_eq_left hle]
      constructor
      · intro heq
        rw [heq] at hmod
        exact .inl ⟨hle, hmod⟩
      · rintro (⟨-, hlt⟩ | ⟨heq, -⟩)
        · exact Nat.mod_eq_of_lt hlt
        · omega
    · have heq : shift = 15 := by omega
      subst heq
      rw [Nat.min_eq_right (by decide)]
      constructor
      · intro hsame
        exact .inr ⟨rfl, by omega⟩
      · rintro (⟨hno, -⟩ | ⟨-, rfl⟩)
        · omega
        · rfl
  · rw [if_neg hs]
    constructor
    · intro hno
      cases hno
    · rintro (⟨hle, -⟩ | ⟨heq, -⟩) <;> omega

/-- The control block of the passive open, with the scales as numbers. -/
theorem passive_controlBlock (hw : accept.headerWindowSize = syn.windowSize)
    (hs : accept.remoteWindowScale = syn.announced.1) : accept.controlBlock config local_ remote =
      (checkedShl 16 syn.windowSize.toNat (config.scales syn).2).bind fun remoteWindowSize =>
      (checkedShl 32 config.receiveWindowSize.toNat (config.scales syn).1).bind fun localWindowSize =>
        some (.new local_ remote (accept.remoteIsn + .ofNat 1) config.ackDelayTimeout (.ofNat localWindowSize)
          (.ofNat (config.scales syn).1) (accept.localIsn + .ofNat 1) (.ofNat remoteWindowSize)
          (.ofNat (config.scales syn).2) accept.mss) := by
  unfold InflightAccept.controlBlock TcpConfig.scales
  rw [hw, hs]
  cases syn.announced.1 with
  | none => rfl
  | some w =>
    have hw : UInt8.ofNat w.toNat = w := UInt8.ofNat_toNat
    dsimp only
    rw [hw]
    rfl

theorem active_controlBlock {s : ActiveOpenSocket} : s.controlBlock header =
    if (s.tcpConfig.scales header).1 ≤ 14 ∧ (s.tcpConfig.scales header).2 ≤ 14 then
      (checkedShl 16 s.tcpConfig.receiveWindowSize.toNat (s.tcpConfig.scales header).1).bind fun rxWindowSize =>
      (checkedShl 16 header.windowSize.toNat (s.tcpConfig.scales header).2).bind fun txWindowSize =>
        some (.new s.local_ s.remote (header.seqNum + .ofNat 1) s.tcpConfig.ackDelayTimeout (.ofNat rxWindowSize)
          (.ofNat (s.tcpConfig.scales header).1) (s.localIsn + .ofNat 1) (.ofNat txWindowSize)
          (.ofNat (s.tcpConfig.scales header).2) header.announced.2)
    else none := by
  unfold ActiveOpenSocket.controlBlock TcpConfig.scales
  cases hannounced : header.announced with
  | mk scale mss =>
    cases scale with
    | none => rfl
    | some w =>
      have hw : UInt8.ofNat w.toNat = w := UInt8.ofNat_toNat
      dsimp only
      rw [hw]
      rfl

theorem shift_le (config : TcpConfig) (hscale : config.windowScale.toNat ≤ 14) (header : TcpHeader) :
    (config.scales header).1 ≤ 14 := by
  unfold TcpConfig.scales
  split
  · exact hscale
  · exact Nat.zero_le 14

/-- The passive open makes a control block with the right windows exactly if the window of the peer can be shifted. -/
theorem passive_agrees_iff (hw : accept.headerWindowSize = syn.windowSize)
    (hs : accept.remoteWindowScale = syn.announced.1) (hscale : config.windowScale.toNat ≤ 14) :
    (∃ cb, accept.controlBlock config local_ remote = some cb ∧ cb.remote = remote ∧ WindowsAgree config syn cb) ↔
      config.PassiveFits syn := by
  have hlocal := shift_le config hscale syn
  have hfield := config.receiveWindowSize.toNat_lt
  have hwindow := syn.windowSize.toNat_lt
  have hrx : config.receiveWindowSize.toNat * 2 ^ (config.scales syn).1 < 2 ^ 32 := by
    have hpow : 2 ^ (config.scales syn).1 ≤ 2 ^ 14 := Nat.pow_le_pow_right (by omega) hlocal
    have hprod : config.receiveWindowSize.toNat * 2 ^ (config.scales syn).1 ≤ (2 ^ 16 - 1) * 2 ^ 14 :=
      Nat.mul_le_mul (by omega) hpow
    omega
  rw [TcpConfig.PassiveFits, ← checkedShl_window hwindow, passive_controlBlock hw hs,
    checkedShl_of_lt (by omega) hrx]
  constructor
  · rintro ⟨cb, hcb, -, hagree⟩
    obtain ⟨size, hsize, hcb⟩ := Option.bind_eq_some_iff.mp hcb
    cases Option.some.inj hcb
    have htx := hagree.sendWindow
    have hlt : size < 2 ^ 16 := by
      obtain ⟨-, hsize⟩ := Option.ite_none_right_eq_some.mp hsize
      rw [← Option.some.inj hsize]
      exact Nat.mod_lt _ (by decide)
    change (UInt32.ofNat size).toNat = _ at htx
    rw [UInt32.toNat_ofNat', Nat.mod_eq_of_lt (by omega)] at htx
    rw [hsize, htx]
  · intro hshift
    have hlt : syn.windowSize.toNat * 2 ^ min (config.scales syn).2 14 < 2 ^ 16 := by
      obtain ⟨-, hsize⟩ := Option.ite_none_right_eq_some.mp hshift
      rw [← Option.some.inj hsize]
      exact Nat.mod_lt _ (by decide)
    rw [hshift]
    refine ⟨_, rfl, rfl, ?_, ?_⟩
    · change (UInt32.ofNat _).toNat = _
      rw [UInt32.toNat_ofNat', Nat.mod_eq_of_lt hrx]
    · change (UInt32.ofNat _).toNat = _
      rw [UInt32.toNat_ofNat', Nat.mod_eq_of_lt (by omega)]

/-- The active open makes one exactly if both windows can be shifted without loss. -/
theorem active_agrees_iff {s : ActiveOpenSocket} (hscale : s.tcpConfig.windowScale.toNat ≤ 14) :
    (∃ cb, s.controlBlock header = some cb ∧ WindowsAgree s.tcpConfig header cb) ↔ s.tcpConfig.ActiveFits header := by
  have hlocal := shift_le s.tcpConfig hscale header
  have hwindow := header.windowSize.toNat_lt
  rw [active_controlBlock, TcpConfig.ActiveFits]
  by_cases hremote : (s.tcpConfig.scales header).2 ≤ 14
  · have hshifted : ∀ {value shift size : Nat}, checkedShl 16 value shift = some size →
        size < 2 ^ 16 ∧ size = value * 2 ^ shift % 2 ^ 16 := by
      intro value shift size hsize
      obtain ⟨-, hsize⟩ := Option.ite_none_right_eq_some.mp hsize
      rw [← Option.some.inj hsize]
      exact ⟨Nat.mod_lt _ (by decide), rfl⟩
    rw [if_pos ⟨hlocal, hremote⟩]
    constructor
    · rintro ⟨cb, hcb, hagree⟩
      obtain ⟨rx, hrx, hcb⟩ := Option.bind_eq_some_iff.mp hcb
      obtain ⟨tx, htx, hcb⟩ := Option.bind_eq_some_iff.mp hcb
      cases Option.some.inj hcb
      obtain ⟨hrxlt, -⟩ := hshifted hrx
      obtain ⟨htxlt, -⟩ := hshifted htx
      have hreceive := hagree.receiveBufferSize
      have hsend := hagree.sendWindow
      change (UInt32.ofNat rx).toNat = _ at hreceive
      change (UInt32.ofNat tx).toNat = _ at hsend
      rw [UInt32.toNat_ofNat', Nat.mod_eq_of_lt (by omega)] at hreceive hsend
      rw [Nat.min_eq_left hremote] at hsend
      refine ⟨hremote, ?_, ?_⟩
      · rw [← hreceive]
        exact hrxlt
      · rw [← hsend]
        exact htxlt
    · rintro ⟨-, hrx, htx⟩
      rw [checkedShl_of_lt (by omega) hrx, checkedShl_of_lt (by omega) htx]
      refine ⟨_, rfl, ?_, ?_⟩
      · change (UInt32.ofNat _).toNat = _
        rw [UInt32.toNat_ofNat', Nat.mod_eq_of_lt (by omega)]
      · change (UInt32.ofNat _).toNat = _
        rw [UInt32.toNat_ofNat', Nat.mod_eq_of_lt (by omega), Nat.min_eq_left hremote]
  · rw [if_neg fun hboth => hremote hboth.2]
    constructor
    · rintro ⟨cb, hcb, -⟩
      cases hcb
    · rintro ⟨hle, -⟩
      exact absurd hle hremote

theorem passive_completes_iff (hp : p.Pending ⟨srcAddr, ack.srcPort⟩ syn accept) (hack : ack.ack = true)
    (hnum : ack.ackNum = accept.localIsn + .ofNat 1) (hscale : p.tcpConfig.windowScale.toNat ≤ 14) :
    p.Completes srcAddr syn ack ↔ p.tcpConfig.PassiveFits syn := by
  rw [← @passive_agrees_iff p.tcpConfig syn accept p.local_ ⟨srcAddr, ack.srcPort⟩ hp.window hp.scale hscale]
  have hreceive : p.receive srcAddr ack =
      (accept.controlBlock p.tcpConfig p.local_ ⟨srcAddr, ack.srcPort⟩).bind fun cb => (p.ready.pushOk cb).bind fun ready =>
        some (.ok (), { p with inflight := p.inflight.remove ⟨srcAddr, ack.srcPort⟩, ready := ready }) := by
    unfold PassiveSocket.receive
    dsimp only
    rw [if_neg hp.unready, hp.entry]
    dsimp only
    unfold PassiveSocket.receiveInflight
    rw [if_neg (by simp [hack]), if_neg (fun hne => hne hnum)]
    rfl
  rw [PassiveSocket.Completes, hreceive]
  constructor
  · rintro ⟨p', cb, h, hready, hagree⟩
    obtain ⟨cb₁, hcb, h⟩ := Option.bind_eq_some_iff.mp h
    obtain ⟨ready, hpush, h⟩ := Option.bind_eq_some_iff.mp h
    cases h
    unfold ReadySockets.pushOk at hpush
    split at hpush
    next => cases hpush
    next =>
      cases hpush
      have hsame : cb₁ = cb := by
        have hlast := List.append_cancel_left hready
        cases hlast
        rfl
      subst hsame
      refine ⟨cb₁, hcb, ?_, hagree⟩
      rw [passive_controlBlock hp.window hp.scale] at hcb
      obtain ⟨tx, -, hcb⟩ := Option.bind_eq_some_iff.mp hcb
      obtain ⟨rx, -, hcb⟩ := Option.bind_eq_some_iff.mp hcb
      cases Option.some.inj hcb
      rfl
  · rintro ⟨cb, hcb, hremote, hagree⟩
    have hpush : p.ready.pushOk cb = some ⟨p.ready.ready ++ [.ok cb], insert cb.remote p.ready.endpoints⟩ := by
      rw [ReadySockets.pushOk, if_neg]
      rw [hremote]
      exact hp.unready
    rw [hcb, Option.bind_some, hpush]
    exact ⟨_, cb, rfl, rfl, hagree⟩

theorem active_completes_iff {s : ActiveOpenSocket} {remoteLinkAddr : Option MacAddress} (ha : s.Answered header)
    (hscale : s.tcpConfig.windowScale.toNat ≤ 14) :
    s.Completes header remoteLinkAddr ↔ remoteLinkAddr.isSome = true ∧ s.tcpConfig.ActiveFits header := by
  rw [← active_agrees_iff hscale, ActiveOpenSocket.Completes, ActiveOpenSocket.receive]
  dsimp only
  rw [if_neg (fun hno => hno ⟨ha.ack, ha.ackNum⟩), if_neg (by simp [ha.noRst]), if_neg (by simp [ha.syn])]
  cases remoteLinkAddr with
  | none => simp
  | some mac =>
    simp only [Option.bind_eq_bind, Option.bind_some, Option.isSome_some, true_and]
    constructor
    · rintro ⟨s', cb, h, hresult, hagree⟩
      obtain ⟨cb₁, hcb, h⟩ := Option.bind_eq_some_iff.mp h
      cases h
      cases hresult
      exact ⟨cb, hcb, hagree⟩
    · rintro ⟨cb, hcb, hagree⟩
      rw [hcb]
      exact ⟨_, cb, rfl, rfl, hagree⟩

/-- The two opens agree on the windows of the handshake exactly where each of them can shift them. -/
theorem handshakeWindows_iff {s : ActiveOpenSocket} {remoteLinkAddr : Option MacAddress}
    (hp : p.Pending ⟨srcAddr, ack.srcPort⟩ syn accept) (hack : ack.ack = true)
    (hnum : ack.ackNum = accept.localIsn + .ofNat 1) (hpassive : p.tcpConfig.windowScale.toNat ≤ 14)
    (ha : s.Answered header) (hactive : s.tcpConfig.windowScale.toNat ≤ 14) :
    (p.Completes srcAddr syn ack ↔ p.tcpConfig.PassiveFits syn) ∧
      (s.Completes header remoteLinkAddr ↔ remoteLinkAddr.isSome = true ∧ s.tcpConfig.ActiveFits header) :=
  ⟨passive_completes_iff hp hack hnum hpassive, active_completes_iff ha hactive⟩

end

/-- A listener with the usual receive window and a window scale. -/
def sampleListener (windowScale : UInt8) : PassiveSocket :=
  .new ⟨⟨10, 0, 1, 8⟩, 10000⟩ 8 ⟨65535, windowScale, 0⟩ (fun _ => 0) 0

def sampleSyn (windowSize : UInt16) (windowScale : UInt8) : TcpHeader :=
  { TcpHeader.new 50000 10000 with
    seqNum := ⟨40⟩, syn := true, windowSize := windowSize, optionList := [.windowScale windowScale] }

/-- The ACK of the peer whose handshake number 0 was chosen for. -/
def sampleAck : TcpHeader := { TcpHeader.new 50000 10000 with seqNum := ⟨41⟩, ack := true, ackNum := ⟨1⟩ }

def sampleConnecting (windowScale : UInt8) : ActiveOpenSocket :=
  .new ⟨0⟩ ⟨⟨10, 0, 1, 8⟩, 10000⟩ ⟨⟨10, 0, 1, 7⟩, 50000⟩ ⟨65535, windowScale, 0⟩

theorem handshakeWindows_iff_sample : ∃ p, (sampleListener 4).receive ⟨10, 0, 1, 7⟩ (sampleSyn 1000 2) = some (.ok (), p) ∧
    p.Completes ⟨10, 0, 1, 7⟩ (sampleSyn 1000 2) sampleAck ∧
    ¬(sampleConnecting 4).Completes { sampleSyn 1000 2 with ack := true, ackNum := ⟨1⟩ } (some ⟨2, 0, 0, 0, 0, 7⟩) := by
  obtain ⟨p, hp, hconfig, hentry⟩ : ∃ p, (sampleListener 4).receive ⟨10, 0, 1, 7⟩ (sampleSyn 1000 2) = some (.ok (), p) ∧
      p.tcpConfig = ⟨65535, 4, 0⟩ ∧ p.inflight.get ⟨⟨10, 0, 1, 7⟩, 50000⟩ = some ⟨⟨0⟩, ⟨40⟩, 1000, some 2, 536⟩ :=
    ⟨_, rfl, rfl, rfl⟩
  obtain ⟨accept, hpending⟩ := receive_pending (by decide) rfl hp
  cases hpending.entry.symm.trans hentry
  obtain ⟨hpassive, hactive⟩ := @handshakeWindows_iff _ _ sampleAck _ p ⟨10, 0, 1, 7⟩ (sampleConnecting 4)
    (some ⟨2, 0, 0, 0, 0, 7⟩) hpending rfl rfl (by rw [hconfig]; decide)
    (⟨rfl, rfl, rfl, rfl⟩ : (sampleConnecting 4).Answered { sampleSyn 1000 2 with ack := true, ackNum := ⟨1⟩ }) (by decide)
  refine ⟨p, hp, hpassive.mpr (by rw [hconfig]; decide), fun h => ?_⟩
  exact absurd (hactive.mp h).2 (by decide)

/-- A peer with window 65535 and scale 7 gets 65408 bytes of window instead of 8388480. -/
theorem handshakeWindows_truncated : ∃ p p' cb,
    (sampleListener 0).receive ⟨10, 0, 1, 7⟩ (sampleSyn 65535 7) = some (.ok (), p) ∧
    p.receive ⟨10, 0, 1, 7⟩ sampleAck = some (.ok (), p') ∧ p'.ready.ready = [.ok cb] ∧
    cb.sender.sendWindow = 65408 ∧ (sampleSyn 65535 7).windowSize.toNat * 2 ^ min 7 14 = 8388480 :=
  ⟨_, _, _, rfl, rfl, rfl, rfl, rfl⟩

end Capybara
