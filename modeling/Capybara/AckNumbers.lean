import Capybara.InFlight

namespace Capybara

open ControlBlock

/-- A header that acknowledges everything before `receiveNext` and neither opens nor resets a connection. -/
structure AcksTo (receiveNext : SeqNumber) (header : TcpHeader) : Prop where
  ackNum : header.ackNum = receiveNext
  noSyn : header.syn = false
  noRst : header.rst = false

/-- All that goes out acknowledges what has been received by then. -/
def Acks (cb cb' : ControlBlock) : Prop :=
  ∃ out : List Transmission, cb'.rt = cb.rt ++ out ∧ ∀ t ∈ out, AcksTo cb'.receiver.receiveNext t.segment.tcpHdr

section

variable {cb cb' cb₁ cb₂ : ControlBlock} {header : TcpHeader} {buf : Buffer} {env : Env}

theorem Acks.nothing (hrt : cb'.rt = cb.rt) : Acks cb cb' := ⟨[], by simp [hrt], by simp⟩

/-- What goes out in the middle of a call goes out in the call. -/
theorem Acks.within (h : Acks cb₁ cb₂) (hbefore : cb₁.rt = cb.rt) (hafter : cb'.rt = cb₂.rt)
    (hnext : cb'.receiver.receiveNext = cb₂.receiver.receiveNext) : Acks cb cb' := by
  obtain ⟨out, hout, hacks⟩ := h
  refine ⟨out, by rw [hafter, hout, hbefore], fun t ht => ?_⟩
  rw [hnext]
  exact hacks t ht

theorem tcpHeader_acksTo (h : cb.tcpHeader = some header) : AcksTo cb.receiver.receiveNext header := by
  obtain ⟨windowSize, -, h⟩ := Option.bind_eq_some_iff.mp h
  cases Option.some.inj h
  exact ⟨rfl, rfl, rfl⟩

theorem AcksTo.numbered {receiveNext : SeqNumber} (h : AcksTo receiveNext header) (seqNum : SeqNumber) :
    AcksTo receiveNext { header with seqNum := seqNum } :=
  ⟨h.ackNum, h.noSyn, h.noRst⟩

theorem AcksTo.marked {receiveNext : SeqNumber} (h : AcksTo receiveNext header) (seqNum : SeqNumber) (buf : Buffer)
    (doPush : Bool) : AcksTo receiveNext (markHeader { header with seqNum := seqNum } buf doPush) := by
  unfold markHeader
  split
  · exact ⟨h.ackNum, h.noSyn, h.noRst⟩
  · split <;> exact ⟨h.ackNum, h.noSyn, h.noRst⟩

theorem emit_acks {delayed : Bool} {body : Option Buffer} {mac : MacAddress}
    (hh : AcksTo cb.receiver.receiveNext header) (h : cb.emit delayed header body mac = some cb') : Acks cb cb' := by
  obtain ⟨_, -, h⟩ := Option.bind_eq_some_iff.mp h
  cases Option.some.inj h
  exact ⟨_, rfl, fun t ht => by rw [List.mem_singleton.mp ht]; exact hh⟩

theorem sendAck_acks {delayed : Bool} (h : cb.sendAck delayed env = some cb') : Acks cb cb' := by
  obtain ⟨header, hh, h⟩ := Option.bind_eq_some_iff.mp h
  split at h
  next => exact emit_acks ((tcpHeader_acksTo hh).numbered _) h
  next =>
    cases h
    exact .nothing rfl

theorem startRetransmitTimer_acks (h : Acks cb cb₁) : Acks cb (cb₁.startRetransmitTimer env) := by
  unfold startRetransmitTimer
  split
  · exact h.within rfl rfl rfl
  · exact h

theorem sendImmediate_acks (h : cb.sendImmediate buf env = some (some cb')) : Acks cb cb' := by
  unfold sendImmediate at h
  split at h
  next =>
    obtain ⟨inFlight, -, h⟩ := Option.bind_eq_some_iff.mp h
    obtain ⟨cwnd, -, h⟩ := Option.bind_eq_some_iff.mp h
    dsimp only at h
    split at h
    next =>
      split at h
      next =>
        obtain ⟨header, hh, h⟩ := Option.bind_eq_some_iff.mp h
        obtain ⟨cb₁, hemit, h⟩ := Option.bind_eq_some_iff.mp h
        cases Option.some.inj h
        have hacks := emit_acks ((tcpHeader_acksTo hh).marked _ _ _) hemit
        exact startRetransmitTimer_acks (hacks.within rfl rfl rfl)
      next => cases h
    next => cases h
  next => cases h

theorem send_acks {result : Except Fail Unit} (h : cb.send buf env = some (result, cb')) : Acks cb cb' := by
  unfold ControlBlock.send at h
  split at h
  next =>
    cases h
    exact .nothing rfl
  next =>
    split at h
    next =>
      cases h
      exact .nothing rfl
    next =>
      obtain ⟨immediate, himm, h⟩ := Option.bind_eq_some_iff.mp h
      cases immediate with
      | some cb₁ =>
        cases h
        exact sendImmediate_acks himm
      | none =>
        dsimp only at h
        split at h
        · cases h
          exact .nothing rfl
        · cases h
          exact .nothing rfl

theorem close_acks {result : Except Fail Unit} (h : cb.close env = some (result, cb')) : Acks cb cb' := by
  unfold ControlBlock.close at h
  split at h
  next =>
    cases h
    exact .nothing rfl
  next =>
    obtain ⟨_, -, h⟩ := Option.bind_eq_some_iff.mp h
    obtain ⟨⟨result₁, cb₁⟩, hsend, h⟩ := Option.bind_eq_some_iff.mp h
    cases result₁ with
    | ok =>
      cases h
      exact (send_acks hsend).within rfl rfl rfl
    | error => cases h

theorem retransmit_acks (h : cb.retransmit env = some cb') : Acks cb cb' := by
  unfold ControlBlock.retransmit at h
  split at h
  next =>
    cases h
    exact .nothing rfl
  next =>
    dsimp only [Option.bind_eq_bind] at h
    split at h
    next =>
      obtain ⟨header, hh, h⟩ := Option.bind_eq_some_iff.mp h
      exact (emit_acks ((tcpHeader_acksTo hh).marked _ _ _) h).within rfl rfl rfl
    next =>
      cases h
      exact .nothing rfl

theorem emitProbe_acks {seqNum : SeqNumber} {mac : MacAddress} (h : cb.emitProbe buf seqNum mac = some cb') :
    Acks cb cb' := by
  obtain ⟨header, hh, h⟩ := Option.bind_eq_some_iff.mp h
  exact emit_acks ((tcpHeader_acksTo hh).numbered _) h

theorem sendProbe_acks {seqNum : SeqNumber} {mac : MacAddress} {now : Instant}
    {socket : EstablishedSocket} (h : cb.sendProbe seqNum mac now = some socket) : Acks cb socket.cb := by
  obtain ⟨popped, -, h⟩ := Option.bind_eq_some_iff.mp h
  cases popped with
  | none => cases h
  | some popped =>
    obtain ⟨cb₁, hemit, h⟩ := Option.bind_eq_some_iff.mp h
    cases Option.some.inj h
    exact (emitProbe_acks hemit).within rfl rfl rfl

theorem sendUnsent_acks {seqNum : SeqNumber} {maxSize : Nat} {mac : MacAddress} {s : EstablishedSocket}
    (h : cb.sendUnsent seqNum maxSize mac env = some s) : Acks cb s.cb := by
  obtain ⟨popped, -, h⟩ := Option.bind_eq_some_iff.mp h
  cases popped with
  | none => cases h
  | some popped =>
    obtain ⟨header, hh, h⟩ := Option.bind_eq_some_iff.mp h
    obtain ⟨_, -, h⟩ := Option.bind_eq_some_iff.mp h
    obtain ⟨cb₁, hemit, h⟩ := Option.bind_eq_some_iff.mp h
    cases Option.some.inj h
    have hacks := emit_acks ((tcpHeader_acksTo hh).marked _ _ _) hemit
    exact startRetransmitTimer_acks (hacks.within rfl rfl rfl)

theorem senderQueries_acks {awaiting : Awaiting} {s : EstablishedSocket}
    (h : cb.senderQueries env awaiting = some s) : Acks cb s.cb := by
  unfold senderQueries at h
  split at h
  next =>
    cases h
    exact .nothing rfl
  next =>
    cases awaiting with
    | probe => exact sendProbe_acks h
    | segment => exact sendUnsent_acks h

theorem background_acks {s s' : EstablishedSocket} (h : s.background env = some s') : Acks s.cb s'.cb := by
  unfold EstablishedSocket.background at h
  split at h
  next =>
    obtain ⟨awaiting, -, h⟩ := Option.bind_eq_some_iff.mp h
    cases awaiting with
    | none =>
      cases h
      exact .nothing rfl
    | some awaiting => exact senderQueries_acks h
  next => exact senderQueries_acks h
  next =>
    cases h
    exact .nothing rfl

theorem receiveOutOfOrder_acks {s : Incoming} (hp : Parsed s) (hsyn : s.header.syn = false)
    (h : cb.receiveOutOfOrder s env = some cb') : Acks cb cb' := by
  rw [receiveOutOfOrder_eq hp hsyn] at h
  split at h
  next =>
    obtain ⟨cb₁, hstore, h⟩ := Option.bind_eq_some_iff.mp h
    refine (sendAck_acks h).within ?_ rfl rfl
    split at hstore
    next =>
      obtain ⟨store, -, hstore⟩ := Option.bind_eq_some_iff.mp hstore
      rw [← Option.some.inj hstore]
      split <;> rfl
    next =>
      rw [← Option.some.inj hstore]
      split <;> rfl
  next =>
    cases h
    exact .nothing rfl

theorem scheduleAck_acks (h : cb.scheduleAck env = some cb') : Acks cb cb' := by
  unfold scheduleAck at h
  split at h
  next =>
    cases h
    exact .nothing rfl
  next => exact (sendAck_acks h).within rfl rfl rfl

theorem receiveInOrder_acks {s : Incoming} (hs : s.segStart = cb.receiver.receiveNext)
    (h : cb.receiveInOrder s env = some cb') : Acks cb cb' := by
  obtain ⟨receiver, htext, -⟩ := takeText_eq hs
  rw [receiveInOrder_eq, htext, Option.bind_some] at h
  dsimp only at h
  split at h
  next =>
    obtain ⟨state, -, h⟩ := processFin_cases h
    exact (sendAck_acks h).within rfl rfl rfl
  next =>
    split at h
    next => exact (scheduleAck_acks h).within rfl rfl rfl
    next =>
      cases h
      exact .nothing rfl

theorem receive_acks {data : Buffer} (hparsed : ∀ s, cb.trimToWindow header data = some (some s) → Parsed s)
    (h : cb.receive header data env = some cb') : Acks cb cb' := by
  obtain ⟨t, ht, h⟩ := Option.bind_eq_some_iff.mp h
  cases t with
  | none =>
    dsimp only at h
    split at h
    · cases h
      exact .nothing rfl
    · exact sendAck_acks h
  | some s =>
    simp only [receiveTrimmed] at h
    split at h
    next =>
      cases h
      exact .nothing rfl
    next =>
      split at h
      next =>
        cases h
        exact .nothing rfl
      next hsyn =>
        split at h
        next =>
          cases h
          exact .nothing rfl
        next =>
          obtain ⟨taken, htaken, h⟩ := Option.bind_eq_some_iff.mp h
          rcases processAck_cases htaken with ⟨rfl, -⟩ | ⟨cb₁, rfl, -, hack⟩
          · exact sendAck_acks h
          · dsimp only at h
            split at h
            next => exact (receiveOutOfOrder_acks (hparsed s ht) (by simpa using hsyn) h).within hack.rt rfl rfl
            next heq =>
              have hstart : s.segStart = cb.receiver.receiveNext := by simpa using heq
              exact (receiveInOrder_acks (hstart.trans hack.inbound.receiveNext.symm) h).within hack.rt rfl rfl

end

/-- Whatever a connection sends in a step, it acknowledges all that it has received after the step. -/
theorem step_acks {r r' : SocketRun} {e : SocketEvent × Env} (hb : r.socket.cb.receiveBufferSize.toNat < 2 ^ 31)
    (hd : r.FitsPacket e) (h : r.step e = some r') : Acks r.socket.cb r'.socket.cb := by
  obtain ⟨e, env⟩ := e
  cases e with
  | segment header data =>
    obtain ⟨s, hs, rfl⟩ := Option.map_eq_some_iff.mp h
    obtain ⟨cb', hreceive, hs⟩ := Option.bind_eq_some_iff.mp hs
    cases Option.some.inj hs
    exact receive_acks (fun t ht => trimToWindow_parsed hd hb ht) hreceive
  | pop =>
    cases Option.some.inj h
    exact .nothing (pollRecv_outbound _).1
  | push buf =>
    obtain ⟨⟨result, cb'⟩, hsend, h⟩ := Option.bind_eq_some_iff.mp h
    cases Option.some.inj h
    exact send_acks hsend
  | close =>
    obtain ⟨⟨result, cb'⟩, hclose, h⟩ := Option.bind_eq_some_iff.mp h
    cases Option.some.inj h
    exact close_acks hclose
  | background =>
    obtain ⟨s, hs, rfl⟩ := Option.map_eq_some_iff.mp h
    exact background_acks hs
  | retransmitTimer =>
    obtain ⟨s, hs, rfl⟩ := Option.map_eq_some_iff.mp h
    unfold EstablishedSocket.retransmitTimer at hs
    split at hs
    next =>
      cases hs
      exact .nothing rfl
    next =>
      obtain ⟨cb', hre, hs⟩ := Option.bind_eq_some_iff.mp hs
      cases Option.some.inj hs
      exact (retransmit_acks hre).within rfl rfl rfl
  | fastRetransmit =>
    obtain ⟨s, hs, rfl⟩ := Option.map_eq_some_iff.mp h
    obtain ⟨cb', hre, hs⟩ := Option.bind_eq_some_iff.mp hs
    cases Option.some.inj hs
    exact retransmit_acks hre
  | ackTimer =>
    obtain ⟨s, hs, rfl⟩ := Option.map_eq_some_iff.mp h
    unfold EstablishedSocket.ackTimer at hs
    split at hs
    next =>
      cases hs
      exact .nothing rfl
    next =>
      obtain ⟨cb', hack, hs⟩ := Option.bind_eq_some_iff.mp hs
      cases Option.some.inj hs
      exact sendAck_acks hack
  | persistTimer =>
    obtain ⟨s, hs, rfl⟩ := Option.map_eq_some_iff.mp h
    unfold EstablishedSocket.persistTimer at hs
    split at hs
    next =>
      cases hs
      exact .nothing rfl
    next =>
      cases hs
      exact .nothing rfl
    next =>
      obtain ⟨cb', hprobe, hs⟩ := Option.bind_eq_some_iff.mp hs
      cases Option.some.inj hs
      exact emitProbe_acks hprobe

end Capybara
