import Capybara.HandshakeWindows
import Capybara.InFlight

namespace Capybara

open ControlBlock

/-- A block as the end of a handshake leaves it. -/
structure Opening (isn peerIsn : SeqNumber) (cb : ControlBlock) : Prop where
  opened : Opened cb
  sendNext : cb.sender.sendNext = isn
  receiveNext : cb.receiver.receiveNext = peerIsn

/-- The numbers that were exchanged with an endpoint, as the listener has them. -/
structure PassiveSocket.Agrees (p : PassiveSocket) (remote : SocketAddrV4) (isn peerIsn : SeqNumber) : Prop where
  inflight : ∀ accept, p.inflight.get remote = some accept →
    accept.localIsn + SeqNumber.ofNat 1 = isn ∧ accept.remoteIsn + SeqNumber.ofNat 1 = peerIsn
  ready : ∀ cb, .ok cb ∈ p.ready.ready → cb.remote = remote → Opening isn peerIsn cb

def PassiveSocket.Unknown (p : PassiveSocket) (remote : SocketAddrV4) : Prop :=
  p.inflight.get remote = none ∧ remote ∉ p.ready.endpoints

/-- What a segment does to a listener, with the numbers of the handshake it begins or completes. -/
inductive PassiveSocket.Reaction (p : PassiveSocket) (endpoint : SocketAddrV4) (header : TcpHeader) :
    PassiveSocket → Prop
  | ignored : Reaction p endpoint header p
  | completes {accept : InflightAccept} {cb : ControlBlock} (hentry : p.inflight.get endpoint = some accept)
      (hcb : accept.controlBlock p.tcpConfig p.local_ endpoint = some cb) (hremote : cb.remote = endpoint) :
      Reaction p endpoint header { p with
        inflight := p.inflight.remove endpoint
        ready := ⟨p.ready.ready ++ [.ok cb], insert cb.remote p.ready.endpoints⟩ }
  | begins {accept : InflightAccept} {isnGenerator : IsnGenerator} (hnew : p.Unknown endpoint)
      (hsyn : header.syn = true) (hack : header.ack = false) (hnumber : accept.remoteIsn = header.seqNum) :
      Reaction p endpoint header
        { p with inflight := p.inflight.insert endpoint accept, isnGenerator := isnGenerator }

/-- What a segment does to a connection attempt. -/
inductive ActiveOpenSocket.Reaction (s : ActiveOpenSocket) (header : TcpHeader) : ActiveOpenSocket → Prop
  | ignored : Reaction s header s
  | refused {e : Fail} : Reaction s header (s.setResult (.error e))
  | answered {cb : ControlBlock} {segment : TcpSegment} (hsyn : header.syn = true)
      (hcb : s.controlBlock header = some cb)
      (hnoSyn : segment.tcpHdr.syn = false) (hack : segment.tcpHdr.ack = true) (hnoFin : segment.tcpHdr.fin = false)
      (hackNum : segment.tcpHdr.ackNum = header.seqNum + SeqNumber.ofNat 1) :
      Reaction s header ({ s with rt := s.rt ++ [segment] }.setResult (.ok cb))

section

variable {isn peerIsn : SeqNumber} {cb cb' : ControlBlock} {accept : InflightAccept} {config : TcpConfig}
  {local_ remote endpoint : SocketAddrV4} {header : TcpHeader} {p p' : PassiveSocket} {srcAddr : Ipv4Addr}
  {result : Except Fail Unit} {s s' : ActiveOpenSocket} {arp : Option MacAddress}

/-- A shifted window field stays small, and shifted back it is one again. -/
theorem checkedShl_bounds {width value shift size : Nat} (h : checkedShl width value shift = some size)
    (hvalue : value < 2 ^ 16) (hshift : shift ≤ 14) :
    shift < width ∧ (UInt32.ofNat size).toNat < 2 ^ 31 ∧ (UInt32.ofNat size).toNat / 2 ^ shift < 2 ^ 16 := by
  obtain ⟨hlt, hsize⟩ := Option.ite_none_right_eq_some.mp h
  have hle : size ≤ value * 2 ^ shift := by
    rw [← Option.some.inj hsize]
    exact Nat.mod_le _ _
  have hpow : value * 2 ^ shift ≤ (2 ^ 16 - 1) * 2 ^ 14 :=
    Nat.mul_le_mul (by omega) (Nat.pow_le_pow_right (by omega) hshift)
  have hback : size / 2 ^ shift ≤ value :=
    Nat.div_le_of_le_mul (by rw [Nat.mul_comm]; exact hle)
  rw [UInt32.toNat_ofNat', Nat.mod_eq_of_lt (by omega)]
  exact ⟨hlt, by omega, by omega⟩

theorem InflightAccept.controlBlock_opening (h : accept.controlBlock config local_ remote = some cb)
    (hscale : config.windowScale.toNat ≤ 14) :
    Opening (accept.localIsn + SeqNumber.ofNat 1) (accept.remoteIsn + SeqNumber.ofNat 1) cb := by
  have hscaled : ∃ scales : Nat × UInt8, scales.1 ≤ 14 ∧
      ((checkedShl 16 accept.headerWindowSize.toNat scales.2.toNat).bind fun remoteWindowSize =>
        (checkedShl 32 config.receiveWindowSize.toNat scales.1).bind fun localWindowSize =>
          some (.new local_ remote (accept.remoteIsn + .ofNat 1) config.ackDelayTimeout (.ofNat localWindowSize)
            (.ofNat scales.1) (accept.localIsn + .ofNat 1) (.ofNat remoteWindowSize) scales.2 accept.mss)) =
        some cb := by
    unfold InflightAccept.controlBlock at h
    cases hremote : accept.remoteWindowScale with
    | none =>
      rw [hremote] at h
      exact ⟨(0, 0), Nat.zero_le _, h⟩
    | some w =>
      rw [hremote] at h
      exact ⟨(config.windowScale.toNat, w), hscale, h⟩
  obtain ⟨⟨localScale, remoteScale⟩, hle, h⟩ := hscaled
  obtain ⟨tx, htx, h⟩ := Option.bind_eq_some_iff.mp h
  obtain ⟨rx, hrx, h⟩ := Option.bind_eq_some_iff.mp h
  cases Option.some.inj h
  obtain ⟨hremoteScale, htx⟩ := Option.ite_none_right_eq_some.mp htx
  have hsent := Nat.mod_lt (accept.headerWindowSize.toNat * 2 ^ remoteScale.toNat) (show 0 < 2 ^ 16 by decide)
  rw [Option.some.inj htx] at hsent
  obtain ⟨-, hbuffer, hfield⟩ := checkedShl_bounds hrx config.receiveWindowSize.toNat_lt hle
  have hlocal : (UInt32.ofNat localScale).toNat = localScale := by
    rw [UInt32.toNat_ofNat', Nat.mod_eq_of_lt (by dsimp only at hle; omega)]
  refine ⟨opened_new hbuffer ?_ ?_ ?_ hremoteScale, rfl, rfl⟩
  · rw [hlocal]
    dsimp only at hle
    omega
  · rw [hlocal]
    exact hfield
  · rw [UInt32.toNat_ofNat', Nat.mod_eq_of_lt (by omega)]
    omega

theorem controlBlock_remote (h : accept.controlBlock config local_ remote = some cb) : cb.remote = remote := by
  unfold InflightAccept.controlBlock at h
  split at h
  all_goals
    obtain ⟨tx, -, h⟩ := Option.bind_eq_some_iff.mp h
    obtain ⟨rx, -, h⟩ := Option.bind_eq_some_iff.mp h
    cases Option.some.inj h
    rfl

theorem ActiveOpenSocket.controlBlock_opening (h : s.controlBlock header = some cb) :
    Opening (s.localIsn + SeqNumber.ofNat 1) (header.seqNum + SeqNumber.ofNat 1) cb := by
  rw [active_controlBlock] at h
  obtain ⟨⟨hle, hremote⟩, h⟩ := Option.ite_none_right_eq_some.mp h
  obtain ⟨rx, hrx, h⟩ := Option.bind_eq_some_iff.mp h
  obtain ⟨tx, htx, h⟩ := Option.bind_eq_some_iff.mp h
  cases Option.some.inj h
  obtain ⟨-, hbuffer, hfield⟩ := checkedShl_bounds hrx s.tcpConfig.receiveWindowSize.toNat_lt hle
  obtain ⟨-, hsent, -⟩ := checkedShl_bounds htx header.windowSize.toNat_lt hremote
  have hlocal : (UInt32.ofNat (s.tcpConfig.scales header).1).toNat = (s.tcpConfig.scales header).1 := by
    rw [UInt32.toNat_ofNat', Nat.mod_eq_of_lt (by omega)]
  refine ⟨opened_new hbuffer ?_ ?_ hsent ?_, rfl, rfl⟩
  · rw [hlocal]
    omega
  · rw [hlocal]
    exact hfield
  · rw [UInt8.toNat_ofNat', Nat.mod_eq_of_lt (by omega)]
    omega

theorem enableStats_remote (hcb : cb.enableStats = some cb') : cb'.remote = cb.remote := by
  obtain ⟨recvQueueStats, -, hcb⟩ := Option.bind_eq_some_iff.mp hcb
  obtain ⟨rpsStats, -, hcb⟩ := Option.bind_eq_some_iff.mp hcb
  cases Option.some.inj hcb
  rfl

theorem Opening.enableStats (h : Opening isn peerIsn cb) (hcb : cb.enableStats = some cb') :
    Opening isn peerIsn cb' := by
  obtain ⟨recvQueueStats, -, hcb⟩ := Option.bind_eq_some_iff.mp hcb
  obtain ⟨rpsStats, -, hcb⟩ := Option.bind_eq_some_iff.mp hcb
  cases Option.some.inj hcb
  obtain ⟨⟨hrt, hstate, hopen, hnext, hunsent, hunacked, hqueue, hwindow, hscale, hreader, hrecv, hstore, hfin, hbuffer,
    hshift, hfield⟩, hsend, hreceive⟩ := h
  exact ⟨⟨hrt, hstate, hopen, hnext, hunsent, hunacked, hqueue, hwindow, hscale, hreader, hrecv, hstore, hfin, hbuffer,
    hshift, hfield⟩, hsend, hreceive⟩

theorem PassiveSocket.receive_reaction (hr : p.receive srcAddr header = some (result, p')) :
    p.Reaction ⟨srcAddr, header.srcPort⟩ header p' := by
  unfold PassiveSocket.receive at hr
  dsimp only at hr
  split at hr
  next =>
    cases hr
    exact .ignored
  next hunready =>
    split at hr
    next accept hentry =>
      unfold receiveInflight at hr
      split at hr
      next =>
        cases hr
        exact .ignored
      next =>
        split at hr
        next =>
          cases hr
          exact .ignored
        next =>
          obtain ⟨cb, hcb, hr⟩ := Option.bind_eq_some_iff.mp hr
          obtain ⟨ready, hpush, hr⟩ := Option.bind_eq_some_iff.mp hr
          cases hr
          unfold ReadySockets.pushOk at hpush
          split at hpush
          next => cases hpush
          next =>
            cases hpush
            exact .completes hentry hcb (controlBlock_remote hcb)
    next hnew =>
      unfold receiveSyn at hr
      split at hr
      next =>
        cases hr
        exact .ignored
      next hflags =>
        split at hr
        next =>
          cases hr
          exact .ignored
        next =>
          obtain ⟨⟨isn, isnGenerator⟩, -, hr⟩ := Option.bind_eq_some_iff.mp hr
          cases hr
          exact .begins ⟨hnew, hunready⟩ (by simpa using fun hsyn => hflags (.inl hsyn))
            (by simpa using fun hack => hflags (.inr (.inl hack))) rfl

theorem ActiveOpenSocket.receive_reaction (hr : s.receive header arp = some s') : s.Reaction header s' := by
  unfold ActiveOpenSocket.receive at hr
  dsimp only at hr
  split at hr
  next =>
    cases hr
    exact .ignored
  next =>
    split at hr
    next =>
      cases hr
      exact .refused
    next =>
      split at hr
      next =>
        cases hr
        exact .ignored
      next hsyn =>
        obtain ⟨remoteLinkAddr, -, hr⟩ := Option.bind_eq_some_iff.mp hr
        obtain ⟨cb, hcb, hr⟩ := Option.bind_eq_some_iff.mp hr
        cases hr
        exact .answered (by simpa using hsyn) hcb rfl rfl rfl rfl

/-- A listener keeps the numbers of an endpoint, apart from those of a handshake that the segment begins. -/
theorem PassiveSocket.Reaction.agrees (hr : p.Reaction endpoint header p') (h : p.Agrees remote isn peerIsn)
    (hscale : p.tcpConfig.windowScale.toNat ≤ 14) (hbegins : ∀ accept, endpoint = remote → p.Unknown remote →
      accept.remoteIsn = header.seqNum → header.syn = true → header.ack = false →
      p'.inflight.get remote = some accept →
      accept.localIsn + SeqNumber.ofNat 1 = isn ∧ accept.remoteIsn + SeqNumber.ofNat 1 = peerIsn) :
    p'.Agrees remote isn peerIsn := by
  cases hr with
  | ignored => exact h
  | @completes accept cb hentry hcb hremote =>
    have hopening := accept.controlBlock_opening hcb hscale
    refine ⟨fun accept' ha => ?_, fun cb' hcb' hremote' => ?_⟩
    · dsimp only at ha
      rw [HashMap.get_remove] at ha
      split at ha
      next => cases ha
      next => exact h.inflight accept' ha
    · rcases List.mem_append.mp hcb' with hold | hnew
      · exact h.ready cb' hold hremote'
      · cases List.mem_singleton.mp hnew
        cases hremote'.symm.trans hremote
        obtain ⟨hisn, hpeer⟩ := h.inflight accept hentry
        rw [← hisn, ← hpeer]
        exact hopening
  | @begins accept isnGenerator hnew hsyn hack hnumber =>
    refine ⟨fun accept' ha => ?_, h.ready⟩
    by_cases heq : endpoint = remote
    · subst heq
      have ha' := ha
      dsimp only at ha'
      rw [HashMap.get_insert, if_pos rfl] at ha'
      cases Option.some.inj ha'
      exact hbegins _ rfl hnew hnumber hsyn hack ha
    · dsimp only at ha
      rw [HashMap.get_insert, if_neg fun h => heq h.symm] at ha
      exact h.inflight accept' ha

theorem PassiveSocket.Reaction.tcpConfig (hr : p.Reaction endpoint header p') : p'.tcpConfig = p.tcpConfig := by
  cases hr <;> rfl

theorem PassiveSocket.Reaction.unknown (hr : p.Reaction endpoint header p') (h : p'.Unknown remote) :
    p.Unknown remote := by
  cases hr with
  | ignored => exact h
  | completes hentry hcb hremote =>
    obtain ⟨hget, hunready⟩ := h
    have hother : remote ≠ endpoint := by
      rintro rfl
      exact hunready (by rw [hremote]; exact Finset.mem_insert_self _ _)
    dsimp only at hget
    rw [HashMap.get_remove, if_neg hother] at hget
    exact ⟨hget, fun hready => hunready (Finset.mem_insert_of_mem hready)⟩
  | @begins accept isnGenerator hnew =>
    obtain ⟨hget, hunready⟩ := h
    dsimp only at hget
    rw [HashMap.get_insert] at hget
    split at hget
    next => cases hget
    next => exact ⟨hget, hunready⟩

theorem PassiveSocket.pollAccept_agrees {r : Option (Except Fail ControlBlock)} (hp : p.pollAccept = some (r, p'))
    (h : p.Agrees remote isn peerIsn) : p'.Agrees remote isn peerIsn ∧ p'.tcpConfig = p.tcpConfig ∧
      (∀ cb, r = some (.ok cb) → cb.remote = remote → Opening isn peerIsn cb) := by
  obtain ⟨⟨result, ready⟩, hpoll, hp⟩ := Option.bind_eq_some_iff.mp hp
  cases hp
  unfold ReadySockets.poll at hpoll
  split at hpoll
  next =>
    cases hpoll
    exact ⟨h, rfl, fun cb hcb => nomatch hcb⟩
  next cb queue hready =>
    obtain ⟨-, hpoll⟩ := Option.ite_none_right_eq_some.mp hpoll
    cases hpoll
    refine ⟨⟨h.inflight, fun cb' hcb' => h.ready cb' ?_⟩, rfl, fun cb' hcb' => h.ready cb' ?_⟩
    · rw [hready]
      exact List.mem_cons_of_mem _ hcb'
    · cases hcb'
      rw [hready]
      exact List.mem_cons_self
  next e queue hready =>
    cases hpoll
    refine ⟨⟨h.inflight, fun cb' hcb' => h.ready cb' ?_⟩, rfl, fun cb' hcb' => nomatch hcb'⟩
    rw [hready]
    exact List.mem_cons_of_mem _ hcb'

theorem PassiveSocket.pollAccept_unknown {r : Option (Except Fail ControlBlock)} (hp : p.pollAccept = some (r, p'))
    (h : p'.Unknown remote) : p.Unknown remote ∨ ∃ cb, r = some (.ok cb) ∧ cb.remote = remote := by
  obtain ⟨⟨result, ready⟩, hpoll, hp⟩ := Option.bind_eq_some_iff.mp hp
  cases hp
  obtain ⟨hget, hunready⟩ := h
  unfold ReadySockets.poll at hpoll
  split at hpoll
  next =>
    cases hpoll
    exact .inl ⟨hget, hunready⟩
  next cb queue hready =>
    obtain ⟨-, hpoll⟩ := Option.ite_none_right_eq_some.mp hpoll
    cases hpoll
    by_cases heq : cb.remote = remote
    · exact .inr ⟨cb, rfl, heq⟩
    · exact .inl ⟨hget, fun hready => hunready (Finset.mem_erase.mpr ⟨fun h => heq h.symm, hready⟩)⟩
  next e queue hready =>
    cases hpoll
    exact .inl ⟨hget, hunready⟩

end

end Capybara
