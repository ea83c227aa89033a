import Capybara.ReceiveCases

namespace Capybara

open ControlBlock

/-- A segment that goes out again: the oldest one on its way, or a window probe that was not answered. -/
inductive Resent (s : EstablishedSocket) : Option (SeqNumber × Buffer) → Prop
  | nothing : Resent s none
  | oldest {buf : Buffer} {rest : List Buffer} (h : s.cb.sender.outbox.inFlight = buf :: rest) :
      Resent s (some (s.cb.sender.sendUnacked, buf))
  | probe {byte : UInt8} {seqNum : SeqNumber} {mac : MacAddress} (h : s.sender = .probing [byte] seqNum mac) :
      Resent s (some (seqNum, [byte]))

/-- A window probe is one byte. -/
def ProbesOneByte (s : EstablishedSocket) : Prop :=
  ∀ buf seqNum mac, s.sender = .probing buf seqNum mac → ∃ byte, buf = [byte]

/-- The buffer that a push or a close hands to `send`, and the block after the event if it is `cb` after `send`. -/
inductive Handed (cb : ControlBlock) : SocketEvent → Buffer → ControlBlock → Prop
  | push (buf : Buffer) : Handed cb (.push buf) buf cb
  | close : Handed cb .close [] { cb with userIsDoneSending := true }

/-- What one event does to a socket. -/
inductive SocketStep (r : SocketRun) (e : SocketEvent) (env : Env) (r' : SocketRun) : Prop
  | received {header : TcpHeader} {data : Buffer} (he : e = .segment header data)
      (hr : Received r.socket.cb header data r'.socket.cb)
      (htask : r'.socket.sender = r.socket.taskAfter r'.socket.cb)
      (hpopped : r'.popped = r.popped) (hresults : r'.results = r.results)
  | popped (he : e = .pop) (hcb : r'.socket.cb = r.socket.cb.pollRecv.2) (htask : r'.socket.sender = r.socket.sender)
      (hpopped : r'.popped = r.popped ++ r.socket.cb.pollRecv.1.toList) (hresults : r'.results = r.results)
  | refused (hsocket : r'.socket = r.socket) (hpopped : r'.popped = r.popped)
      (hresults : ∀ buf, e = .push buf → ∃ fail, r'.results = r.results ++ [.error fail])
  | sentNow {buf : Buffer} {cb₁ : ControlBlock} (hh : Handed cb₁ e buf r'.socket.cb)
      (hopen : r.socket.cb.userIsDoneSending = false)
      (hstate : e = .close → r.socket.cb.state = .established ∨ r.socket.cb.state = .closeWait)
      (hnow : SendsNow r.socket.cb buf env)
      (hm : Moves r.socket.cb cb₁ (some (r.socket.cb.sender.sendNext, buf)) (r.socket.cb.sender.outbox.sendNow buf))
      (htask : r'.socket.sender = r.socket.sender) (hpopped : r'.popped = r.popped)
      (hresults : r'.results = r.results ++ [.ok ()])
  | queued {buf : Buffer} {cb₁ : ControlBlock} (hh : Handed cb₁ e buf r'.socket.cb)
      (hopen : r.socket.cb.userIsDoneSending = false)
      (hstate : e = .close → r.socket.cb.state = .established ∨ r.socket.cb.state = .closeWait)
      (hlater : Queues r.socket.cb buf env)
      (hm : Moves r.socket.cb cb₁ none (r.socket.cb.sender.outbox.queue buf))
      (htask : r'.socket.sender = r.socket.sender) (hpopped : r'.popped = r.popped)
      (hresults : r'.results = r.results ++ [.ok ()])
  | turn (he : e = .background) (h : SenderTurn r.socket env r'.socket)
      (hpopped : r'.popped = r.popped) (hresults : r'.results = r.results)
  | resent {sent : Option (SeqNumber × Buffer)} (he : e = .retransmitTimer ∨ e = .fastRetransmit ∨ e = .ackTimer ∨
        e = .persistTimer) (hsent : Resent r.socket sent)
      (hm : Moves r.socket.cb r'.socket.cb sent r.socket.cb.sender.outbox)
      (htask : r'.socket.sender = r.socket.sender) (hpopped : r'.popped = r.popped) (hresults : r'.results = r.results)

section

variable {r r' : SocketRun} {env : Env}

theorem retransmit_resent {s : EstablishedSocket} {cb' : ControlBlock} (h : s.cb.retransmit env = some cb') :
    ∃ sent, Resent s sent ∧ Moves s.cb cb' sent s.cb.sender.outbox := by
  rcases retransmit_moves h with hm | ⟨buf, rest, hq, hm⟩
  · exact ⟨none, .nothing, hm⟩
  · exact ⟨_, .oldest hq, hm⟩

theorem push_step {buf : Buffer} (h : r.step (.push buf, env) = some r') : SocketStep r (.push buf) env r' := by
  obtain ⟨⟨result, cb'⟩, hsend, h⟩ := Option.bind_eq_some_iff.mp h
  cases Option.some.inj h
  rcases send_cases hsend with ⟨⟨fail, rfl⟩, rfl⟩ | ⟨rfl, hopen, ⟨hnow, hm⟩ | ⟨hlater, hm⟩⟩
  · exact .refused rfl rfl fun _ _ => ⟨fail, rfl⟩
  · exact .sentNow (.push buf) hopen (fun hc => by cases hc) hnow hm rfl rfl rfl
  · exact .queued (.push buf) hopen (fun hc => by cases hc) hlater hm rfl rfl rfl

theorem close_step (h : r.step (.close, env) = some r') : SocketStep r .close env r' := by
  obtain ⟨⟨result, cb'⟩, hclose, h⟩ := Option.bind_eq_some_iff.mp h
  have hresult : result = .ok () := by
    unfold ControlBlock.close at hclose
    split at hclose
    · cases hclose
      rfl
    · obtain ⟨_, -, hclose⟩ := Option.bind_eq_some_iff.mp hclose
      obtain ⟨⟨result₁, cb₁⟩, -, hclose⟩ := Option.bind_eq_some_iff.mp hclose
      cases result₁ with
      | ok => exact (Prod.mk.inj (Option.some.inj hclose)).1.symm
      | error => cases hclose
  cases Option.some.inj h
  rcases close_cases hclose with ⟨-, rfl⟩ | ⟨hopen, hstate, cb₁, rfl, ⟨hnow, hm⟩ | ⟨hlater, hm⟩⟩
  · exact .refused rfl rfl fun buf hc => by cases hc
  · exact .sentNow .close hopen (fun _ => hstate) hnow hm rfl rfl (by rw [hresult])
  · exact .queued .close hopen (fun _ => hstate) hlater hm rfl rfl (by rw [hresult])

theorem persistTimer_step (hone : ProbesOneByte r.socket) (h : r.step (.persistTimer, env) = some r') :
    SocketStep r .persistTimer env r' := by
  obtain ⟨s, hs, rfl⟩ := Option.map_eq_some_iff.mp h
  unfold EstablishedSocket.persistTimer at hs
  split at hs
  next =>
    cases hs
    exact .resent (by simp) .nothing (.refl _) rfl rfl rfl
  next =>
    cases hs
    exact .resent (by simp) .nothing (.refl _) rfl rfl rfl
  next buf seqNum mac htask =>
    obtain ⟨cb', hprobe, hs⟩ := Option.bind_eq_some_iff.mp hs
    cases Option.some.inj hs
    obtain ⟨byte, rfl⟩ := hone buf seqNum mac htask
    exact .resent (by simp) (.probe htask) (emitProbe_moves hprobe) rfl rfl rfl

theorem timer_step (h : r.step (.retransmitTimer, env) = some r') : SocketStep r .retransmitTimer env r' := by
  obtain ⟨s, hs, rfl⟩ := Option.map_eq_some_iff.mp h
  unfold EstablishedSocket.retransmitTimer at hs
  split at hs
  next =>
    cases hs
    exact .resent (by simp) .nothing (.refl _) rfl rfl rfl
  next =>
    obtain ⟨cb', hre, hs⟩ := Option.bind_eq_some_iff.mp hs
    cases Option.some.inj hs
    obtain ⟨sent, hsent, hm⟩ := retransmit_resent hre
    exact .resent (by simp) hsent
      (hm.finish (.timers cb' cb'.ackDeadline _) hm.outbox) rfl rfl rfl

/-- The text of a segment fits an IP packet. -/
def SocketRun.FitsPacket (_ : SocketRun) (e : SocketEvent × Env) : Prop :=
  match e.1 with
  | .segment _ data => data.length < 2 ^ 16
  | _ => True

instance : (r : SocketRun) → (e : SocketEvent × Env) → Decidable (r.FitsPacket e)
  | _, (.segment _ data, _) => inferInstanceAs (Decidable (data.length < 2 ^ 16))
  | _, (.pop, _) | _, (.push _, _) | _, (.close, _) | _, (.background, _) | _, (.retransmitTimer, _)
  | _, (.fastRetransmit, _) | _, (.ackTimer, _) | _, (.persistTimer, _) => inferInstanceAs (Decidable True)

/-- Every event is one of the moves. -/
theorem step_cases {e : SocketEvent × Env} (hone : ProbesOneByte r.socket)
    (hb : r.socket.cb.receiveBufferSize.toNat < 2 ^ 31) (hd : r.FitsPacket e) (h : r.step e = some r') :
    SocketStep r e.1 e.2 r' := by
  obtain ⟨e, env⟩ := e
  cases e with
  | segment header data =>
    obtain ⟨s, hs, rfl⟩ := Option.map_eq_some_iff.mp h
    obtain ⟨cb', hreceive, hs⟩ := Option.bind_eq_some_iff.mp hs
    cases Option.some.inj hs
    exact .received rfl (receive_cases (fun t ht => trimToWindow_parsed hd hb ht) hreceive) rfl rfl rfl
  | pop =>
    cases Option.some.inj h
    exact .popped rfl rfl rfl rfl rfl
  | push buf => exact push_step h
  | close => exact close_step h
  | background =>
    obtain ⟨s, hs, rfl⟩ := Option.map_eq_some_iff.mp h
    exact .turn rfl (background_turn hs) rfl rfl
  | retransmitTimer => exact timer_step h
  | fastRetransmit =>
    obtain ⟨s, hs, rfl⟩ := Option.map_eq_some_iff.mp h
    obtain ⟨cb', hre, hs⟩ := Option.bind_eq_some_iff.mp hs
    cases Option.some.inj hs
    obtain ⟨sent, hsent, hm⟩ := retransmit_resent hre
    exact .resent (by simp) hsent hm rfl rfl rfl
  | ackTimer =>
    obtain ⟨s, hs, rfl⟩ := Option.map_eq_some_iff.mp h
    unfold EstablishedSocket.ackTimer at hs
    split at hs
    next =>
      cases hs
      exact .resent (by simp) .nothing (.refl _) rfl rfl rfl
    next =>
      obtain ⟨cb', hack, hs⟩ := Option.bind_eq_some_iff.mp hs
      cases Option.some.inj hs
      exact .resent (by simp) .nothing (sendAck_moves hack) rfl rfl rfl
  | persistTimer => exact persistTimer_step hone h

end

end Capybara
