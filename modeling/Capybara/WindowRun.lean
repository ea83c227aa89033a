import Capybara.ReceiveTotal

namespace Capybara

open ControlBlock Runs

namespace SocketRun

/-- What a segment brings in order stays inside the receive window. -/
def StaysInWindow (r : SocketRun) (e : SocketEvent × Env) : Prop :=
  match e.1 with
  | .segment header data => RoomFor r.socket.cb header data
  | _ => True

instance : (r : SocketRun) → (e : SocketEvent × Env) → Decidable (StaysInWindow r e)
  | r, (.segment header data, _) => inferInstanceAs (Decidable (RoomFor r.socket.cb header data))
  | _, (.pop, _) | _, (.push _, _) | _, (.close, _) | _, (.background, _) | _, (.retransmitTimer, _)
  | _, (.fastRetransmit, _) | _, (.ackTimer, _) | _, (.persistTimer, _) => inferInstanceAs (Decidable True)

/-- The number of bytes the application has popped. -/
def bytesRead (r : SocketRun) : Nat := r.popped.flatten.length

/-- What a run from `cb` keeps. -/
structure Accounted (cb : ControlBlock) (r : SocketRun) : Prop where
  running : Running r
  accounts : ∃ unread, Accounts r.socket.cb unread
  buffer : SameBuffer cb r.socket.cb
  readerNext : r.socket.cb.receiver.readerNext = cb.receiver.readerNext + SeqNumber.ofNat r.bytesRead

end SocketRun

open SocketRun

/-- The first sequence number behind the receive window. -/
def ControlBlock.rightEdge (cb : ControlBlock) : Option SeqNumber :=
  cb.getReceiveWindowSize.map fun windowSize => cb.receiver.receiveNext + SeqNumber.ofNat windowSize

/-- The window is what is left of the buffer, and the field of the header is the window in units of the scale. -/
structure WindowSound (cb : ControlBlock) : Prop where
  unread_le : (cb.receiver.receiveNext - cb.receiver.readerNext).toNat ≤ cb.receiveBufferSize.toNat
  windowSize : cb.getReceiveWindowSize =
    some (cb.receiveBufferSize.toNat - (cb.receiver.receiveNext - cb.receiver.readerNext).toNat)
  field : ∃ field windowSize, cb.hdrWindowSize = some field ∧ cb.getReceiveWindowSize = some windowSize ∧
    field.toNat * 2 ^ cb.windowScale.toNat ≤ windowSize ∧
      windowSize < field.toNat * 2 ^ cb.windowScale.toNat + 2 ^ cb.windowScale.toNat

section

variable {cb cb' : ControlBlock} {r r' : SocketRun} {e : SocketEvent × Env} {es es' : List (SocketEvent × Env)}

theorem Opened.accounts (h : Opened cb) : Accounts cb 0 where
  buffer := h.buffer
  scale := h.scale
  field := h.field
  receiveNext := by rw [h.receiveNext, SeqNumber.add_ofNat_zero]
  unread_le := Nat.zero_le _
  queued := by simp [h.recvQueue]
  stored := by simp [h.outOfOrder]

theorem Opened.accounted (h : Opened cb) : Accounted cb (.start ⟨cb, .top⟩) where
  running := h.running
  accounts := ⟨0, h.accounts⟩
  buffer := ⟨rfl, rfl⟩
  readerNext := (SeqNumber.add_ofNat_zero _).symm

/-- Nothing was received and nothing popped. -/
theorem SocketRun.Accounted.sameInbound (h : Accounted cb r) (hr : Running r')
    (hs : SameInbound r.socket.cb r'.socket.cb) (hp : r'.popped = r.popped) : Accounted cb r' where
  running := hr
  accounts := h.accounts.imp fun _ ha => ha.sameInbound hs
  buffer := h.buffer.trans hs.buffer
  readerNext := by rw [hs.readerNext, bytesRead, hp]; exact h.readerNext

theorem accounted_step (h : Accounted cb r) (hok : FitsPacket r e ∧ StaysInWindow r e)
    (hs : SocketRun.step r e = some r') : Accounted cb r' := by
  obtain ⟨event, env⟩ := e
  obtain ⟨hd, hroom⟩ := hok
  obtain ⟨hstep, hrun⟩ := h.running.step hd hs
  have hbuffer := h.buffer.trans hstep.sameBuffer
  cases hstep with
  | received he hr _ hpopped =>
    dsimp only at he
    subst he
    obtain ⟨unread, ha⟩ := h.accounts
    obtain ⟨ha', hreader⟩ := hr.accounts ha hroom hd
    refine ⟨hrun, ha', hbuffer, ?_⟩
    rw [hreader, bytesRead, hpopped]
    exact h.readerNext
  | popped he hcb _ hpopped =>
    obtain ⟨unread, ha⟩ := h.accounts
    obtain ⟨ha', hreader⟩ := pollRecv_accounts ha
    rw [← hcb] at ha' hreader
    refine ⟨hrun, ha', hbuffer, ?_⟩
    rw [hreader, h.readerNext, SeqNumber.add_ofNat_add, bytesRead, bytesRead, hpopped, List.flatten_append,
      List.length_append]
  | refused hsocket hpopped =>
    exact h.sameInbound hrun (by rw [hsocket]; exact .refl _) hpopped
  | sentNow hh _ _ _ hm _ hpopped => exact h.sameInbound hrun (hm.inbound.trans hh.same.inbound) hpopped
  | queued hh _ _ _ hm _ hpopped => exact h.sameInbound hrun (hm.inbound.trans hh.same.inbound) hpopped
  | turn _ ht hpopped => exact h.sameInbound hrun ht.inbound hpopped
  | resent _ _ hm _ hpopped => exact h.sameInbound hrun hm.inbound hpopped

theorem accounted_run (ho : Opened cb) (hp : Admits step FitsPacket (.start ⟨cb, .top⟩) es)
    (hw : Admits step StaysInWindow (.start ⟨cb, .top⟩) es) (hr : run step (.start ⟨cb, .top⟩) es = some r) :
    Accounted cb r :=
  run_reaches (fun _ _ _ h hok hs => accounted_step h hok hs) ho.accounted (hp.and hw) hr

theorem Accounts.windowSound {unread : Nat} (h : Accounts cb unread) : WindowSound cb := by
  have hwin := h.getReceiveWindowSize
  have hfield := h.field
  have hdiv := @Nat.div_le_div_right (cb.receiveBufferSize.toNat - unread) cb.receiveBufferSize.toNat
    (2 ^ cb.windowScale.toNat) (Nat.sub_le _ _)
  have hsize : cb.hdrWindowSize = some (UInt16.ofNat ((cb.receiveBufferSize.toNat - unread) / 2 ^ cb.windowScale.toNat)) := by
    simp only [hdrWindowSize, hwin, Option.bind_eq_bind, Option.bind_some]
    exact if_pos ⟨h.scale, by omega⟩
  refine ⟨by rw [h.distance]; exact h.unread_le, by rw [h.distance]; exact hwin, _, _, hsize, hwin, ?_⟩
  rw [UInt16.toNat_ofNat', Nat.mod_eq_of_lt (by omega)]
  refine ⟨Nat.div_mul_le_self _ _, ?_⟩
  have hpos := Nat.two_pow_pos cb.windowScale.toNat
  have hlt := Nat.lt_div_mul_add (a := cb.receiveBufferSize.toNat - unread) hpos
  omega

theorem SocketRun.Accounted.rightEdge (h : Accounted cb r) : r.socket.cb.rightEdge =
    some (cb.receiver.readerNext + SeqNumber.ofNat (r.bytesRead + cb.receiveBufferSize.toNat)) := by
  obtain ⟨unread, ha⟩ := h.accounts
  have hu := ha.unread_le
  rw [h.buffer.receiveBufferSize] at hu
  rw [ControlBlock.rightEdge, ha.getReceiveWindowSize, Option.map_some, ha.receiveNext, h.readerNext,
    h.buffer.receiveBufferSize, SeqNumber.add_ofNat_add, SeqNumber.add_ofNat_add]
  congr 3
  omega

theorem SocketStep.bytesRead {event : SocketEvent} {env : Env} (h : SocketStep r event env r') :
    r.bytesRead ≤ r'.bytesRead := by
  have hsame : ∀ {q q' : SocketRun}, q'.popped = q.popped → q.bytesRead ≤ q'.bytesRead :=
    fun hp => by rw [SocketRun.bytesRead, SocketRun.bytesRead, hp]
  cases h with
  | received _ _ _ hp => exact hsame hp
  | popped _ _ _ hp =>
    rw [SocketRun.bytesRead, SocketRun.bytesRead, hp, List.flatten_append, List.length_append]
    omega
  | refused _ hp => exact hsame hp
  | sentNow _ _ _ _ _ _ hp => exact hsame hp
  | queued _ _ _ _ _ _ hp => exact hsame hp
  | turn _ _ hp => exact hsame hp
  | resent _ _ _ _ hp => exact hsame hp

/-- What a run goes on to keeps what it has read. -/
theorem accounted_later (h : Accounted cb r) (hp : Admits step FitsPacket r es) (hw : Admits step StaysInWindow r es)
    (hr : run step r es = some r') : Accounted cb r' ∧ r.bytesRead ≤ r'.bytesRead := by
  refine @run_reaches _ _ step (fun r' => Accounted cb r' ∧ r.bytesRead ≤ r'.bytesRead) _ ?_ r r' es
    ⟨h, Nat.le_refl _⟩ (hp.and hw) hr
  intro q e q' hq hok hs
  exact ⟨accounted_step hq.1 hok hs, Nat.le_trans hq.2 (hq.1.running.step hok.1 hs).1.bytesRead⟩

/-- As long as every segment stays in the window, the unread bytes fit the buffer, both window sizes can be computed,
also while a segment is received, and the right edge moves by what the application reads. -/
theorem windowRun_sound (ho : Opened cb) (hp : Admits step FitsPacket (.start ⟨cb, .top⟩) (es ++ es'))
    (hw : Admits step StaysInWindow (.start ⟨cb, .top⟩) (es ++ es')) (hr : run step (.start ⟨cb, .top⟩) es = some r)
    (hr' : run step r es' = some r') :
    WindowSound r.socket.cb ∧ r.socket.cb.receiveBufferSize = cb.receiveBufferSize ∧
      (∃ edge moved, r.socket.cb.rightEdge = some edge ∧ r'.bytesRead = r.bytesRead + moved ∧
        r'.socket.cb.rightEdge = some (edge + SeqNumber.ofNat moved)) ∧
      ∀ header data env, data.length < 2 ^ 16 → RoomFor r.socket.cb header data →
        Bearable r.socket.cb header data → ∃ cb', r.socket.cb.receive header data env = some cb' ∧ WindowSound cb' := by
  obtain ⟨hp₁, hp₂⟩ := hp.of_append
  obtain ⟨hw₁, hw₂⟩ := hw.of_append
  have h := accounted_run ho hp₁ hw₁ hr
  obtain ⟨h', hle⟩ := accounted_later h (hp₂ r hr) (hw₂ r hr) hr'
  obtain ⟨unread, ha⟩ := h.accounts
  refine ⟨ha.windowSound, h.buffer.receiveBufferSize, ?_, fun header data env hd hroom hbear => ?_⟩
  · obtain ⟨moved, hmoved⟩ := Nat.exists_eq_add_of_le hle
    refine ⟨_, moved, h.rightEdge, hmoved, ?_⟩
    rw [h'.rightEdge, hmoved, SeqNumber.add_ofNat_add]
    congr 3
    omega
  · have hsome := (@receive_isSome_iff _ _ _ _ env h.running.inFlight ha hd hroom).mpr hbear
    obtain ⟨cb', hreceive⟩ := Option.isSome_iff_exists.mp hsome
    have hreceived := receive_cases (fun t ht => trimToWindow_parsed hd h.running.buffer ht) hreceive
    obtain ⟨⟨unread', ha'⟩, -⟩ := hreceived.accounts ha hroom hd
    exact ⟨cb', hreceive, ha'.windowSound⟩

end

theorem windowRun_sound_sample : ∃ r r' cb', run step (.start ⟨smallWindow, .top⟩)
      [(.segment (peerHeader ⟨40⟩ false) [1, 2, 3], linkEnv)] = some r ∧
    run step r [(.pop, linkEnv)] = some r' ∧ r'.bytesRead = 3 ∧ WindowSound r.socket.cb ∧
    r.socket.cb.receive (peerHeader ⟨43⟩ true) [4, 5] linkEnv = some cb' ∧ WindowSound cb' := by
  obtain ⟨r, r', hr, hr', hread, hd, hroom, hbear⟩ : ∃ r r', run step (.start ⟨smallWindow, .top⟩)
        [(.segment (peerHeader ⟨40⟩ false) [1, 2, 3], linkEnv)] = some r ∧ run step r [(.pop, linkEnv)] = some r' ∧
      r'.bytesRead = 3 ∧ [4, 5].length < 2 ^ 16 ∧ RoomFor r.socket.cb (peerHeader ⟨43⟩ true) [4, 5] ∧
      Bearable r.socket.cb (peerHeader ⟨43⟩ true) [4, 5] :=
    ⟨_, _, rfl, rfl, rfl, by decide, by decide, by decide⟩
  obtain ⟨hsound, -, -, hnext⟩ := windowRun_sound smallWindow_opened (by decide) (by decide) hr hr'
  obtain ⟨cb', hreceive, hsound'⟩ := hnext (peerHeader ⟨43⟩ true) [4, 5] linkEnv hd hroom hbear
  exact ⟨r, r', cb', hr, hr', hread, hsound, hreceive, hsound'⟩

/-- A FIN with text that stored text beyond it continues up to the right edge takes one sequence number too many: the
window for its ACK cannot be computed. -/
theorem windowRun_sound_overrun : ∃ r s cb₁, Opened smallWindow ∧
    Admits step FitsPacket (.start ⟨smallWindow, .top⟩) [(.segment (peerHeader ⟨44⟩ false) [5, 6, 7, 8], linkEnv),
      (.segment (peerHeader ⟨40⟩ true) [1, 2, 3, 4], linkEnv)] ∧
    run step (.start ⟨smallWindow, .top⟩) [(.segment (peerHeader ⟨44⟩ false) [5, 6, 7, 8], linkEnv)] = some r ∧
    r.socket.cb.processed (peerHeader ⟨40⟩ true) [1, 2, 3, 4] = some s ∧
    r.socket.cb.takeText s = some (true, true, cb₁) ∧ (cb₁.afterFin .closeWait).receiveBufferSize.toNat = 8 ∧
    ((cb₁.afterFin .closeWait).receiver.receiveNext - (cb₁.afterFin .closeWait).receiver.readerNext).toNat = 9 ∧
    (cb₁.afterFin .closeWait).getReceiveWindowSize = none ∧
    r.socket.cb.receive (peerHeader ⟨40⟩ true) [1, 2, 3, 4] linkEnv = none :=
  ⟨_, _, _, smallWindow_opened, by decide, rfl, rfl, rfl, rfl, rfl, rfl, rfl⟩

end Capybara
