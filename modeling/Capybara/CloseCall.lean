import Capybara.WindowRun

namespace Capybara

open Runs

namespace ControlBlock

/-- The receive window can be computed and fits the window field of a header. -/
def WindowFieldFits (cb : ControlBlock) : Prop :=
  (cb.receiver.receiveNext - cb.receiver.readerNext).toNat ≤ cb.receiveBufferSize.toNat ∧ cb.windowScale.toNat < 32 ∧
    (cb.receiveBufferSize.toNat - (cb.receiver.receiveNext - cb.receiver.readerNext).toNat) / 2 ^ cb.windowScale.toNat <
      2 ^ 16

instance (cb : ControlBlock) : Decidable cb.WindowFieldFits := inferInstanceAs (Decidable (_ ∧ _))

/-- What a refused close leaves as it was. -/
structure StaysOpen (cb cb' : ControlBlock) : Prop where
  sender : cb'.sender = cb.sender
  state : cb'.state = cb.state
  recvQueueStats : cb'.receiver.recvQueueStats = cb.receiver.recvQueueStats
  rpsStats : cb'.receiver.rpsStats = cb.receiver.rpsStats
  userIsDoneSending : cb'.userIsDoneSending = cb.userIsDoneSending

/-- `close` returns, and with an error it changes nothing. -/
def CloseSafe (cb : ControlBlock) (env : Env) : Prop :=
  ∃ result cb', cb.close env = some (result, cb') ∧ ∀ fail, result = .error fail → StaysOpen cb cb'

/-- The user is done already, or the connection is in one of the two states in which `close` is expected and the FIN
can go out or be queued. -/
def CanClose (cb : ControlBlock) (env : Env) : Prop :=
  cb.userIsDoneSending = true ∨ ((cb.state = .established ∨ cb.state = .closeWait) ∧
    if cb.sender.unsentQueue = [] then
      env.cwnd.toNat + env.limitedTransmitCwndIncrease.toNat < 2 ^ 32 ∧ (SendsNow cb [] env → cb.WindowFieldFits)
    else cb.sender.unsentQueue.length ≤ unsentQueueCutoff)

instance (cb : ControlBlock) (env : Env) : Decidable (CanClose cb env) := inferInstanceAs (Decidable (_ ∨ _))

section

variable {cb : ControlBlock} {env : Env}

theorem tcpHeader_isSome_iff : cb.tcpHeader.isSome = true ↔ cb.WindowFieldFits := by
  unfold tcpHeader hdrWindowSize getReceiveWindowSize checkedSub WindowFieldFits
  by_cases hroom : (cb.receiver.receiveNext - cb.receiver.readerNext).toNat ≤ cb.receiveBufferSize.toNat
  · simp only [hroom, if_true, Option.bind_eq_bind, Option.bind_some, true_and]
    split <;> simp_all
  · simp [hroom]

/-- A header can be sent whenever it can be made. -/
theorem emit_isSome {delayed : Bool} {header : TcpHeader} {body : Option Buffer} {mac : MacAddress}
    (h : header.ack = true) : (cb.emit delayed header body mac).isSome = true := by
  simp [emit, debugAssert, h]

theorem markHeader_ack (header : TcpHeader) (buf : Buffer) (doPush : Bool) :
    (markHeader header buf doPush).ack = header.ack := by
  unfold markHeader
  split
  · rfl
  · split <;> rfl

theorem addU32_of_not_lt {a b : Nat} (h : ¬a + b < 2 ^ 32) : addU32 a b = none := if_neg h

theorem sendsNow_iff {buf : Buffer} {mac : MacAddress} (hempty : cb.sender.unsentQueue = []) (harp : env.arp = some mac) :
    SendsNow cb buf env ↔ cb.sender.sendWindow.toNat > 0 ∧
      cb.sender.sendWindow.toNat ≥ (cb.sender.sendNext - cb.sender.sendUnacked).toNat + buf.length ∧
      env.cwnd.toNat + env.limitedTransmitCwndIncrease.toNat ≥
        (cb.sender.sendNext - cb.sender.sendUnacked).toNat + buf.length := by
  simp only [SendsNow, hempty, harp, Option.isSome_some, true_and]
  omega

/-- Sending at once fails only on an overflow or for want of a window field. -/
theorem sendImmediate_isSome_iff {buf : Buffer} (hempty : cb.sender.unsentQueue = []) :
    (cb.sendImmediate buf env).isSome = true ↔
      (cb.sender.sendNext - cb.sender.sendUnacked).toNat + buf.length < 2 ^ 32 ∧
        env.cwnd.toNat + env.limitedTransmitCwndIncrease.toNat < 2 ^ 32 ∧
        (SendsNow cb buf env → cb.WindowFieldFits) := by
  have hqueue : cb.sender.unsentQueue.isEmpty = true := by simp [hempty]
  unfold sendImmediate
  rw [if_pos hqueue]
  by_cases hin : (cb.sender.sendNext - cb.sender.sendUnacked).toNat + buf.length < 2 ^ 32
  · by_cases hcwnd : env.cwnd.toNat + env.limitedTransmitCwndIncrease.toNat < 2 ^ 32
    · simp only [addU32_of_lt hin, addU32_of_lt hcwnd, Option.bind_eq_bind, Option.bind_some, hin, hcwnd, true_and]
      cases harp : env.arp with
      | none => simp [SendsNow, harp]
      | some mac =>
        have hnow := @sendsNow_iff cb env buf mac hempty harp
        rw [← tcpHeader_isSome_iff]
        by_cases hsends : SendsNow cb buf env
        · rw [if_pos (hnow.mp hsends)]
          cases hheader : cb.tcpHeader with
          | none => simp [hsends]
          | some header =>
            obtain ⟨cb₁, hemit⟩ := Option.isSome_iff_exists.mp (@emit_isSome cb false
              (markHeader { header with seqNum := cb.sender.sendNext } buf true) (some buf) mac
              (by rw [markHeader_ack]; exact (tcpHeader_flags hheader).1))
            simp [hemit]
        · rw [if_neg fun hroom => hsends (hnow.mpr hroom)]
          simp [hsends]
    · simp only [addU32_of_lt hin, addU32_of_not_lt hcwnd, hcwnd, Option.bind_eq_bind, Option.bind_some,
        Option.bind_none, Option.isSome_none, Bool.false_eq_true, false_and, and_false]
  · simp only [addU32_of_not_lt hin, hin, Option.bind_eq_bind, Option.bind_none, Option.isSome_none, Bool.false_eq_true,
      false_and]

/-- The FIN is sent or queued exactly if the queue is empty and sending at once does not fail, or there is room in
the queue. -/
theorem send_marker_iff (hopen : cb.userIsDoneSending = false) :
    (∃ cb₁, cb.send [] env = some (.ok (), cb₁)) ↔
      if cb.sender.unsentQueue = [] then
        env.cwnd.toNat + env.limitedTransmitCwndIncrease.toNat < 2 ^ 32 ∧ (SendsNow cb [] env → cb.WindowFieldFits)
      else cb.sender.unsentQueue.length ≤ unsentQueueCutoff := by
  have hsent := (cb.sender.sendNext - cb.sender.sendUnacked).toNat_lt
  have hlen : ¬([] : Buffer).length ≥ 2 ^ 32 := by simp
  unfold send
  rw [if_neg (by simp [hopen]), if_neg hlen]
  by_cases hempty : cb.sender.unsentQueue = []
  · have himm := @sendImmediate_isSome_iff cb env [] hempty
    rw [if_pos hempty]
    simp only [List.length_nil, Nat.add_zero, hsent, true_and] at himm
    rw [← himm]
    cases hsend : cb.sendImmediate [] env with
    | none => simp
    | some result =>
      cases result with
      | none => simp [hempty]
      | some cb₁ => simp
  · have himm : cb.sendImmediate [] env = some none := by
      rw [sendImmediate, if_neg (by simp [hempty])]
    rw [if_neg hempty, himm]
    by_cases hroom : cb.sender.unsentQueue.length > unsentQueueCutoff
    · simp [hroom]
    · simp [hroom]
      omega

/-- `close` goes through when the FIN is sent or queued, and never with an error. -/
theorem close_eq_some_iff (hopen : cb.userIsDoneSending = false) {result : Except Fail Unit} {cb' : ControlBlock} :
    cb.close env = some (result, cb') ↔ (cb.state = .established ∨ cb.state = .closeWait) ∧
      ∃ cb₁, cb.disableStats.send [] env = some (.ok (), cb₁) ∧ result = .ok () ∧
        cb' = { cb₁ with userIsDoneSending := true } := by
  have hstats : cb.disableStats.state = cb.state := rfl
  unfold close
  rw [if_neg (by simp [hopen])]
  dsimp only
  rw [hstats]
  by_cases hstate : cb.state = .established ∨ cb.state = .closeWait
  · simp only [hstate, decide_true, debugAssert, if_true, true_and]
    cases hsend : cb.disableStats.send [] env with
    | none => simp
    | some answer =>
      obtain ⟨result₁, cb₁⟩ := answer
      cases result₁ with
      | ok =>
        simp only [Option.bind_eq_bind, Option.bind_some, Option.some.injEq, Prod.mk.injEq, true_and]
        constructor
        · rintro ⟨rfl, rfl⟩
          exact ⟨cb₁, rfl, rfl, rfl⟩
        · rintro ⟨_, rfl, rfl, rfl⟩
          exact ⟨rfl, rfl⟩
      | error => simp
  · simp [hstate, debugAssert]

/-- A control block, reachable or not, can be closed safely exactly if the user has closed it before, or it is in
ESTABLISHED or CLOSE-WAIT and its FIN can go out or be queued: nothing else returns an error, it panics. -/
theorem closeSafe_iff (cb : ControlBlock) (env : Env) : CloseSafe cb env ↔ CanClose cb env := by
  unfold CloseSafe CanClose
  cases hdone : cb.userIsDoneSending with
  | true =>
    have hclose : cb.close env = some (.ok (), cb) := by rw [close, if_pos hdone]
    exact ⟨fun _ => .inl rfl, fun _ => ⟨_, cb, hclose, fun _ hc => by cases hc⟩⟩
  | false =>
    have hmarker := @send_marker_iff cb.disableStats env hdone
    simp only [close_eq_some_iff hdone, Bool.false_eq_true, false_or]
    constructor
    · rintro ⟨_, _, ⟨hstate, cb₁, hsend, -, -⟩, -⟩
      exact ⟨hstate, hmarker.mp ⟨cb₁, hsend⟩⟩
    · rintro ⟨hstate, hroom⟩
      obtain ⟨cb₁, hsend⟩ := hmarker.mpr hroom
      exact ⟨_, _, ⟨hstate, cb₁, hsend, rfl, rfl⟩, fun _ hc => by cases hc⟩

end

end ControlBlock

/-- The peer resets the connection and then the user closes it. -/
theorem close_after_reset : ∃ r, Opened smallWindow ∧
    run SocketRun.step (.start ⟨smallWindow, .top⟩)
      [(.segment { peerHeader ⟨40⟩ false with rst := true } [], linkEnv)] = some r ∧
    ¬ControlBlock.CloseSafe r.socket.cb linkEnv := by
  refine ⟨_, smallWindow_opened, rfl, fun h => ?_⟩
  obtain ⟨result, cb', hclose, -⟩ := h
  obtain ⟨hstate, -⟩ := (ControlBlock.close_eq_some_iff rfl).mp hclose
  rcases hstate with hstate | hstate <;> cases hstate

end Capybara
