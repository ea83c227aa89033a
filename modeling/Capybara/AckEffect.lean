import Capybara.CloseCall

namespace Capybara

open ControlBlock

/-- The send queues, the window of the peer and the retransmission timer are as they were. -/
structure SameSendSide (cb cb' : ControlBlock) : Prop where
  sender : cb'.sender = cb.sender
  retransmitDeadline : cb'.retransmitDeadline = cb.retransmitDeadline

/-- What the sender knows about the window of the peer is as it was. -/
structure SamePeerWindow (s s' : Sender) : Prop where
  sendWindow : s'.sendWindow = s.sendWindow
  sendWindowLastUpdateSeq : s'.sendWindowLastUpdateSeq = s.sendWindowLastUpdateSeq
  sendWindowLastUpdateAck : s'.sendWindowLastUpdateAck = s.sendWindowLastUpdateAck

/-- What a segment does to the sending side: what its ACK number does if it is processed, else nothing. -/
inductive AckEffect (cb : ControlBlock) (header : TcpHeader) (data : Buffer) (env : Env) (cb' : ControlBlock) : Prop
  | ignored (hnone : cb.processed header data = none) (hsame : SameSendSide cb cb')
  | taken {s : Incoming} {cb₁ : ControlBlock} (hp : Processed cb header data s)
      (hack : cb.processAck s.header env = some (some cb₁)) (hsame : SameSendSide cb₁ cb')

section

variable {cb cb' cb₁ : ControlBlock} {env : Env} {header : TcpHeader} {data : Buffer} {s : Incoming}

theorem SameSendSide.refl (cb : ControlBlock) : SameSendSide cb cb := ⟨rfl, rfl⟩

theorem SameSendSide.trans (h : SameSendSide cb cb₁) (h' : SameSendSide cb₁ cb') : SameSendSide cb cb' :=
  ⟨h'.sender.trans h.sender, h'.retransmitDeadline.trans h.retransmitDeadline⟩

theorem emit_sendSide {delayed : Bool} {body : Option Buffer} {mac : MacAddress}
    (h : cb.emit delayed header body mac = some cb') : SameSendSide cb cb' := by
  obtain ⟨-, -, h⟩ := Option.bind_eq_some_iff.mp h
  cases Option.some.inj h
  exact ⟨rfl, rfl⟩

theorem emitProbe_sendSide {buf : Buffer} {seqNum : SeqNumber} {mac : MacAddress}
    (h : cb.emitProbe buf seqNum mac = some cb') : SameSendSide cb cb' := by
  obtain ⟨_, -, h⟩ := Option.bind_eq_some_iff.mp h
  exact emit_sendSide h

theorem sendAck_sendSide {delayed : Bool} (h : cb.sendAck delayed env = some cb') : SameSendSide cb cb' := by
  obtain ⟨_, -, h⟩ := Option.bind_eq_some_iff.mp h
  split at h
  · exact emit_sendSide h
  · cases h
    exact .refl cb

theorem pollRecv_sendSide (cb : ControlBlock) : SameSendSide cb cb.pollRecv.2 := by
  refine ⟨pollRecv_sender cb, ?_⟩
  rw [pollRecv]
  split <;> rfl

theorem processFin_sendSide (h : cb.processFin env = some cb') : SameSendSide cb cb' := by
  obtain ⟨state, -, h⟩ := processFin_cases h
  have hs := sendAck_sendSide h
  exact ⟨hs.sender, hs.retransmitDeadline⟩

theorem scheduleAck_sendSide (h : cb.scheduleAck env = some cb') : SameSendSide cb cb' := by
  unfold scheduleAck at h
  split at h
  · cases h
    exact ⟨rfl, rfl⟩
  · have hs := sendAck_sendSide h
    exact ⟨hs.sender, hs.retransmitDeadline⟩

theorem receiveInOrder_sendSide (hs : s.segStart = cb.receiver.receiveNext) (h : cb.receiveInOrder s env = some cb') :
    SameSendSide cb cb' := by
  obtain ⟨receiver, htext, -⟩ := takeText_eq hs
  rw [receiveInOrder_eq, htext, Option.bind_some] at h
  have hsame : SameSendSide { cb with
      outOfOrder := cb.outOfOrder.drop ((cb.arrivals s).length - 1), receiver := receiver } cb' := by
    dsimp only at h
    split at h
    · exact processFin_sendSide h
    · split at h
      · exact scheduleAck_sendSide h
      · cases h
        exact .refl _
  exact ⟨hsame.sender, hsame.retransmitDeadline⟩

theorem receiveOutOfOrder_sendSide (hp : Parsed s) (hsyn : s.header.syn = false)
    (h : cb.receiveOutOfOrder s env = some cb') : SameSendSide cb cb' := by
  rw [receiveOutOfOrder_eq hp hsyn] at h
  split at h
  next =>
    obtain ⟨cb₁, hstore, h⟩ := Option.bind_eq_some_iff.mp h
    have hfin : SameSendSide cb (if s.header.fin then cb.storeOutOfOrderFin s.segEnd else cb) := by
      split <;> exact ⟨rfl, rfl⟩
    have hstored : SameSendSide cb cb₁ := by
      split at hstore
      next =>
        obtain ⟨store, -, hstore⟩ := Option.bind_eq_some_iff.mp hstore
        cases Option.some.inj hstore
        exact hfin.trans ⟨rfl, rfl⟩
      next =>
        cases Option.some.inj hstore
        exact hfin
    exact hstored.trans (sendAck_sendSide h)
  next =>
    cases h
    exact .refl cb

/-- Only the ACK number of a segment that is processed reaches the sending side. -/
theorem receive_ackEffect (hparsed : ∀ s, cb.trimToWindow header data = some (some s) → Parsed s)
    (h : cb.receive header data env = some cb') : AckEffect cb header data env cb' := by
  obtain ⟨t, ht, h⟩ := Option.bind_eq_some_iff.mp h
  have hdropped : cb.processed header data = none → SameSendSide cb cb' → AckEffect cb header data env cb' := .ignored
  cases t with
  | none =>
    apply hdropped (by simp [processed, ht])
    dsimp only at h
    split at h
    · cases h
      exact .refl cb
    · exact sendAck_sendSide h
  | some s =>
    simp only [receiveTrimmed] at h
    split at h
    next hrst =>
      cases h
      exact hdropped (by simp [processed, ht, hrst]) ⟨rfl, rfl⟩
    next hrst =>
      split at h
      next hsyn =>
        cases h
        exact hdropped (by simp [processed, ht, hsyn]) ⟨rfl, rfl⟩
      next hsyn =>
        split at h
        next hack =>
          cases h
          exact hdropped (by simp_all [processed]) (.refl cb)
        next hack =>
          obtain ⟨taken, htaken, h⟩ := Option.bind_eq_some_iff.mp h
          rcases processAck_cases htaken with ⟨rfl, hbeyond⟩ | ⟨cb₁, rfl, hallows, hacked⟩
          · exact hdropped (by simp [processed, ht, hbeyond]) (sendAck_sendSide h)
          · have hp : Processed cb header data s :=
              ⟨ht, by simpa using hrst, by simpa using hsyn, by simpa using hack, hallows⟩
            dsimp only at h
            split at h
            next => exact .taken hp htaken (receiveOutOfOrder_sendSide (hparsed s ht) hp.noSyn h)
            next heq =>
              have hstart : s.segStart = cb.receiver.receiveNext := by simpa using heq
              refine .taken hp htaken (receiveInOrder_sendSide ?_ h)
              rw [hstart, hacked.inbound.receiveNext]

theorem processAck_old (hold : cb.sender.sendUnacked.lt header.ackNum = false)
    (h : cb.processAck header env = some (some cb₁)) : cb₁ = cb := by
  rw [processAck, if_neg (by simp [hold])] at h
  exact (Option.some.inj (Option.some.inj h)).symm

/-- An ACK of something new takes it off the retransmission queue, may set the window, and stops the timer or starts
it anew. -/
theorem processAck_new (hnew : cb.sender.sendUnacked.lt header.ackNum = true)
    (h : cb.processAck header env = some (some cb₁)) :
    ∃ queue, Sender.removeAcknowledgedData cb.sender.unackedQueue (header.ackNum - cb.sender.sendUnacked).toNat =
        some queue ∧
      { cb.sender with unackedQueue := queue, sendUnacked := header.ackNum }.updateSendWindow header = some cb₁.sender ∧
      cb₁.retransmitDeadline = if header.ackNum = cb.sender.sendNext then none else some (env.now + env.rto) := by
  unfold processAck at h
  dsimp only at h
  rw [if_pos hnew] at h
  split at h
  next hsent =>
    obtain ⟨queue, hqueue, h⟩ := Option.bind_eq_some_iff.mp h
    obtain ⟨sender, hwin, h⟩ := Option.bind_eq_some_iff.mp h
    refine ⟨queue, hqueue, ?_⟩
    split at h
    next hall =>
      cases Option.some.inj (Option.some.inj h)
      exact ⟨hwin, (if_pos hall).symm⟩
    next hpart =>
      cases Option.some.inj (Option.some.inj h)
      exact ⟨hwin, (if_neg hpart).symm⟩
  next => cases h

theorem SamePeerWindow.refl (s : Sender) : SamePeerWindow s s := ⟨rfl, rfl, rfl⟩

theorem SameSendSide.peerWindow (h : SameSendSide cb cb') : SamePeerWindow cb.sender cb'.sender := by
  rw [h.sender]
  exact .refl _

theorem startRetransmitTimer_sender (cb : ControlBlock) (env : Env) : (cb.startRetransmitTimer env).sender = cb.sender := by
  unfold startRetransmitTimer
  split <;> rfl

theorem startRetransmitTimer_isSome (cb : ControlBlock) (env : Env) :
    (cb.startRetransmitTimer env).retransmitDeadline.isSome = true := by
  unfold startRetransmitTimer
  split
  · rfl
  next hset => simp [hset]

/-- A buffer that goes out at once is emitted, noted as sent, and the timer runs. -/
theorem sendImmediate_emits {buf : Buffer} (h : cb.sendImmediate buf env = some (some cb')) :
    ∃ header mac cb₁, cb.emit false header (some buf) mac = some cb₁ ∧
      cb' = ({ cb₁.noteSent buf env.now with sender := { (cb₁.noteSent buf env.now).sender with
        unsentSeqNo := (cb₁.noteSent buf env.now).sender.unsentSeqNo + SeqNumber.ofNat (sequenceLength buf) }
        }).startRetransmitTimer env := by
  unfold sendImmediate at h
  split at h
  next =>
    obtain ⟨_, -, h⟩ := Option.bind_eq_some_iff.mp h
    obtain ⟨_, -, h⟩ := Option.bind_eq_some_iff.mp h
    dsimp only at h
    split at h
    next =>
      split at h
      next =>
        obtain ⟨_, -, h⟩ := Option.bind_eq_some_iff.mp h
        obtain ⟨cb₁, hemit, h⟩ := Option.bind_eq_some_iff.mp h
        cases Option.some.inj (Option.some.inj h)
        exact ⟨_, _, cb₁, hemit, rfl⟩
      next => cases h
    next => cases h
  next => cases h

/-- A push is refused, waits in the queue, or goes out at once. -/
theorem send_leaves {buf : Buffer} {result : Except Fail Unit} (h : cb.send buf env = some (result, cb')) :
    cb' = cb ∨ cb' = { cb with sender := { cb.sender with
      unsentQueue := cb.sender.unsentQueue ++ [buf]
      unsentSeqNo := cb.sender.unsentSeqNo + SeqNumber.ofNat buf.length } } ∨
      cb.sendImmediate buf env = some (some cb') := by
  unfold ControlBlock.send at h
  split at h
  next =>
    cases h
    exact .inl rfl
  next =>
    split at h
    next =>
      cases h
      exact .inl rfl
    next =>
      obtain ⟨immediate, himm, h⟩ := Option.bind_eq_some_iff.mp h
      cases immediate with
      | none =>
        dsimp only at h
        split at h
        · cases h
          exact .inl rfl
        · cases h
          exact .inr (.inl rfl)
      | some cb₁ =>
        cases h
        exact .inr (.inr himm)

theorem send_peerWindow {buf : Buffer} {result : Except Fail Unit} (h : cb.send buf env = some (result, cb')) :
    SamePeerWindow cb.sender cb'.sender := by
  rcases send_leaves h with rfl | rfl | himm
  · exact .refl _
  · exact ⟨rfl, rfl, rfl⟩
  · obtain ⟨header, mac, cb₁, hemit, rfl⟩ := sendImmediate_emits himm
    have hsame := (emit_sendSide hemit).peerWindow
    rw [startRetransmitTimer_sender]
    exact ⟨hsame.1, hsame.2, hsame.3⟩

theorem close_peerWindow {result : Except Fail Unit} (h : cb.close env = some (result, cb')) :
    SamePeerWindow cb.sender cb'.sender := by
  cases hdone : cb.userIsDoneSending with
  | true =>
    rw [close, if_pos hdone] at h
    cases h
    exact .refl _
  | false =>
    obtain ⟨-, cb₁, hsend, -, rfl⟩ := (close_eq_some_iff hdone).mp h
    exact (send_peerWindow hsend : SamePeerWindow cb.disableStats.sender cb₁.sender)

theorem retransmit_peerWindow (h : cb.retransmit env = some cb') : SamePeerWindow cb.sender cb'.sender := by
  unfold ControlBlock.retransmit at h
  split at h
  next =>
    cases h
    exact .refl _
  next =>
    dsimp only [Option.bind_eq_bind] at h
    split at h
    next =>
      obtain ⟨_, -, h⟩ := Option.bind_eq_some_iff.mp h
      have hsame := (emit_sendSide h).peerWindow
      exact ⟨hsame.1, hsame.2, hsame.3⟩
    next =>
      cases h
      exact ⟨rfl, rfl, rfl⟩

theorem popOneUnsentByte_queues {t t' : Sender} {byte : Buffer} (h : t.popOneUnsentByte = some (some (byte, t'))) :
    ∃ queue, t' = { t with unsentQueue := queue } := by
  unfold Sender.popOneUnsentByte at h
  split at h
  next => cases h
  next =>
    obtain ⟨_, -, h⟩ := Option.bind_eq_some_iff.mp h
    obtain ⟨_, -, h⟩ := Option.bind_eq_some_iff.mp h
    cases Option.some.inj (Option.some.inj h)
    exact ⟨_, rfl⟩

theorem sendProbe_peerWindow {sendNext : SeqNumber} {mac : MacAddress} {now : Instant} {t : EstablishedSocket}
    (h : cb.sendProbe sendNext mac now = some t) : SamePeerWindow cb.sender t.cb.sender := by
  obtain ⟨popped, hpop, h⟩ := Option.bind_eq_some_iff.mp h
  rcases popped with - | ⟨byte, sender⟩
  · cases h
  · obtain ⟨queue, rfl⟩ := popOneUnsentByte_queues hpop
    obtain ⟨cb₁, hprobe, h⟩ := Option.bind_eq_some_iff.mp h
    cases Option.some.inj h
    have hsame := (emitProbe_sendSide hprobe).peerWindow
    exact ⟨hsame.1, hsame.2, hsame.3⟩

theorem sendUnsent_peerWindow {sendNext : SeqNumber} {maxSize : Nat} {mac : MacAddress} {t : EstablishedSocket}
    (h : cb.sendUnsent sendNext maxSize mac env = some t) : SamePeerWindow cb.sender t.cb.sender := by
  obtain ⟨popped, hpop, h⟩ := Option.bind_eq_some_iff.mp h
  rcases popped with - | ⟨⟨piece, doPush⟩, sender⟩
  · cases h
  · obtain ⟨buf, queue, -, -, rfl⟩ := popUnsent_cases hpop
    obtain ⟨_, -, h⟩ := Option.bind_eq_some_iff.mp h
    obtain ⟨_, -, h⟩ := Option.bind_eq_some_iff.mp h
    obtain ⟨cb₁, hemit, h⟩ := Option.bind_eq_some_iff.mp h
    cases Option.some.inj h
    have hsame := (emit_sendSide hemit).peerWindow
    rw [startRetransmitTimer_sender]
    exact ⟨hsame.1, hsame.2, hsame.3⟩

theorem sendProbe_timer {sendNext : SeqNumber} {mac : MacAddress} {now : Instant} {t : EstablishedSocket}
    (h : cb.sendProbe sendNext mac now = some t) : t.cb.retransmitDeadline = cb.retransmitDeadline := by
  obtain ⟨popped, -, h⟩ := Option.bind_eq_some_iff.mp h
  rcases popped with - | ⟨byte, sender⟩
  · cases h
  · obtain ⟨cb₁, hprobe, h⟩ := Option.bind_eq_some_iff.mp h
    cases Option.some.inj h
    exact (emitProbe_sendSide hprobe).retransmitDeadline

theorem sendUnsent_timer {sendNext : SeqNumber} {maxSize : Nat} {mac : MacAddress} {t : EstablishedSocket}
    (h : cb.sendUnsent sendNext maxSize mac env = some t) : t.cb.retransmitDeadline.isSome = true := by
  obtain ⟨popped, -, h⟩ := Option.bind_eq_some_iff.mp h
  rcases popped with - | ⟨⟨piece, doPush⟩, sender⟩
  · cases h
  · obtain ⟨_, -, h⟩ := Option.bind_eq_some_iff.mp h
    obtain ⟨_, -, h⟩ := Option.bind_eq_some_iff.mp h
    obtain ⟨cb₁, -, h⟩ := Option.bind_eq_some_iff.mp h
    cases Option.some.inj h
    exact startRetransmitTimer_isSome _ env

theorem senderQueries_peerWindow {awaiting : Awaiting} {t : EstablishedSocket}
    (h : cb.senderQueries env awaiting = some t) : SamePeerWindow cb.sender t.cb.sender := by
  unfold senderQueries at h
  split at h
  next =>
    cases h
    exact .refl _
  next =>
    cases awaiting with
    | probe => exact sendProbe_peerWindow h
    | segment => exact sendUnsent_peerWindow h

theorem background_peerWindow {t t' : EstablishedSocket} (h : t.background env = some t') :
    SamePeerWindow t.cb.sender t'.cb.sender := by
  unfold EstablishedSocket.background at h
  split at h
  next =>
    obtain ⟨awaiting, -, h⟩ := Option.bind_eq_some_iff.mp h
    cases awaiting with
    | none =>
      cases h
      exact .refl _
    | some awaiting => exact senderQueries_peerWindow h
  next => exact senderQueries_peerWindow h
  next =>
    cases h
    exact .refl _

/-- Of the events at a socket only segments touch what is known about the window. -/
theorem step_peerWindow {r r' : SocketRun} {e : SocketEvent} (h : r.step (e, env) = some r')
    (hseg : ∀ header data, e ≠ .segment header data) : SamePeerWindow r.socket.cb.sender r'.socket.cb.sender := by
  cases e with
  | segment header data => exact absurd rfl (hseg header data)
  | pop =>
    cases Option.some.inj h
    exact (pollRecv_sendSide _).peerWindow
  | push buf =>
    obtain ⟨⟨result, cb'⟩, hsend, h⟩ := Option.bind_eq_some_iff.mp h
    cases Option.some.inj h
    exact send_peerWindow hsend
  | close =>
    obtain ⟨⟨result, cb'⟩, hclose, h⟩ := Option.bind_eq_some_iff.mp h
    cases Option.some.inj h
    exact close_peerWindow hclose
  | background =>
    obtain ⟨t, ht, rfl⟩ := Option.map_eq_some_iff.mp h
    exact background_peerWindow ht
  | retransmitTimer =>
    obtain ⟨s, hs, rfl⟩ := Option.map_eq_some_iff.mp h
    unfold EstablishedSocket.retransmitTimer at hs
    split at hs
    next =>
      cases hs
      exact .refl _
    next =>
      obtain ⟨cb', hre, hs⟩ := Option.bind_eq_some_iff.mp hs
      cases Option.some.inj hs
      have hsame := retransmit_peerWindow hre
      exact hsame
  | fastRetransmit =>
    obtain ⟨s, hs, rfl⟩ := Option.map_eq_some_iff.mp h
    obtain ⟨cb', hre, hs⟩ := Option.bind_eq_some_iff.mp hs
    cases Option.some.inj hs
    exact retransmit_peerWindow hre
  | ackTimer =>
    obtain ⟨s, hs, rfl⟩ := Option.map_eq_some_iff.mp h
    unfold EstablishedSocket.ackTimer at hs
    split at hs
    next =>
      cases hs
      exact .refl _
    next =>
      obtain ⟨cb', hack, hs⟩ := Option.bind_eq_some_iff.mp hs
      cases Option.some.inj hs
      exact (sendAck_sendSide hack).peerWindow
  | persistTimer =>
    obtain ⟨s, hs, rfl⟩ := Option.map_eq_some_iff.mp h
    unfold EstablishedSocket.persistTimer at hs
    split at hs
    next =>
      cases hs
      exact .refl _
    next =>
      cases hs
      exact .refl _
    next =>
      obtain ⟨cb', hprobe, hs⟩ := Option.bind_eq_some_iff.mp hs
      cases Option.some.inj hs
      exact (emitProbe_sendSide hprobe).peerWindow

end

end Capybara
