import Capybara.InFlight

namespace Capybara

open ControlBlock Runs

/-- A buffer that `send` leaves to the background sender is not the end-of-send marker, and the queue stays shorter than
the sequence space. -/
def QueueCounts (cb : ControlBlock) (buf : Buffer) (env : Env) : Prop :=
  cb.userIsDoneSending = false → Queues cb buf env →
    buf ≠ [] ∧ seqTotal cb.sender.unsentQueue + buf.length < 2 ^ 32

instance (cb : ControlBlock) (buf : Buffer) (env : Env) : Decidable (QueueCounts cb buf env) :=
  inferInstanceAs (Decidable (_ → _))

/-- A window probe does not take the only byte of a buffer, and segments can carry text. -/
def FrontCounts (s : EstablishedSocket) (env : Env) : Prop :=
  ∀ buf, s.cb.sender.unsentQueue.head? = some buf →
    (s.sendsProbe env = true → buf.length ≠ 1) ∧ (s.cutsSegment env = true → s.cb.sender.mss ≠ 0)

instance (s : EstablishedSocket) (env : Env) : Decidable (FrontCounts s env) :=
  inferInstanceAs (Decidable (∀ buf, s.cb.sender.unsentQueue.head? = some buf → _))

namespace SocketRun

def KeepsCount (r : SocketRun) (e : SocketEvent × Env) : Prop :=
  match e.1 with
  | .push buf => QueueCounts r.socket.cb buf e.2
  | .close => QueueCounts r.socket.cb [] e.2
  | .background => FrontCounts r.socket e.2
  | _ => True

instance : (r : SocketRun) → (e : SocketEvent × Env) → Decidable (KeepsCount r e)
  | r, (.push buf, env) => inferInstanceAs (Decidable (QueueCounts r.socket.cb buf env))
  | r, (.close, env) => inferInstanceAs (Decidable (QueueCounts r.socket.cb [] env))
  | r, (.background, env) => inferInstanceAs (Decidable (FrontCounts r.socket env))
  | _, (.pop, _) | _, (.segment _ _, _) | _, (.retransmitTimer, _) | _, (.fastRetransmit, _) | _, (.ackTimer, _)
  | _, (.persistTimer, _) => inferInstanceAs (Decidable True)

end SocketRun

/-- What waits to be sent is what the unsent sequence number counts beyond SND.NXT. -/
structure Outbox.Counted (o : Outbox) : Prop where
  text : [] ∉ o.waiting
  unsentSeqNo : o.unsentSeqNo = o.sendNext + SeqNumber.ofNat (seqTotal o.waiting)
  short : seqTotal o.waiting < 2 ^ 32

section

variable {o : Outbox} {buf : Buffer} {cb cb' : ControlBlock} {r r' : SocketRun}
  {e : SocketEvent × Env} {es : List (SocketEvent × Env)} {header : TcpHeader} {data : Buffer}

theorem Outbox.Counted.distance (h : o.Counted) : (o.unsentSeqNo - o.sendNext).toNat = seqTotal o.waiting := by
  have hshort := h.short
  have hn := o.sendNext.toNat_lt
  rw [h.unsentSeqNo]
  simp only [SeqNumber.toNat_sub, SeqNumber.toNat_add_ofNat]
  omega

theorem Outbox.Counted.sendNow (h : o.Counted) (hempty : o.waiting = []) (buf : Buffer) : (o.sendNow buf).Counted where
  text := h.text
  unsentSeqNo := by
    have hnext := h.unsentSeqNo
    rw [hempty, seqTotal_nil, SeqNumber.add_ofNat_zero] at hnext
    simp only [Outbox.sendNow, Outbox.send, hempty, seqTotal_nil, SeqNumber.add_ofNat_zero, hnext]
  short := h.short

theorem Outbox.Counted.queue (h : o.Counted) (hbuf : buf ≠ []) (hshort : seqTotal o.waiting + buf.length < 2 ^ 32) :
    (o.queue buf).Counted where
  text := by simpa [Outbox.queue] using ⟨h.text, hbuf⟩
  unsentSeqNo := by
    simp only [Outbox.queue, h.unsentSeqNo, seqTotal_append, seqTotal_cons, seqTotal_nil, Nat.add_zero,
      sequenceLength_of_ne hbuf, SeqNumber.add_ofNat_add]
  short := by
    simpa [Outbox.queue, sequenceLength_of_ne hbuf] using hshort

/-- A piece of the first waiting buffer goes out and the rest stays, unless it is empty. -/
theorem Outbox.Counted.send {piece : Buffer} {waiting : List Buffer} (h : o.Counted) (hpiece : piece ≠ [])
    (htext : [] ∉ waiting) (htotal : seqTotal o.waiting = piece.length + seqTotal waiting) :
    ({ o with waiting := waiting }.send piece).Counted where
  text := htext
  unsentSeqNo := by
    simp only [Outbox.send, h.unsentSeqNo, htotal, sequenceLength_of_ne hpiece, SeqNumber.add_ofNat_add]
  short := by
    have hshort := h.short
    simp only [Outbox.send]
    omega

theorem counted_turn {s s' : EstablishedSocket} {env : Env} (h : s.cb.sender.outbox.Counted) (hc : Coherent s)
    (hb : WithinHalf s) (hfront : FrontCounts s env) (ht : SenderTurn s env s') : s'.cb.sender.outbox.Counted := by
  cases ht with
  | idle _ hsame => rwa [hsame]
  | awaits _ _ hsame => rwa [hsame]
  | @probe sendNext byte rest queue mac hread harp hq _ _ hm =>
    have hone := (hfront (byte :: rest) (by rw [hq]; rfl)).1 (hread.sendsProbe harp)
    have hrest : rest ≠ [] := fun he => hone (by rw [he]; rfl)
    have htext := h.text
    have hwaiting : s.cb.sender.outbox.waiting = (byte :: rest) :: queue := hq
    rw [hwaiting] at htext
    rw [hm.outbox]
    refine h.send (by simp) ?_ ?_
    · simpa [hrest.symm] using htext
    · rw [hwaiting, seqTotal_cons, seqTotal_cons, sequenceLength_of_ne hrest, sequenceLength_of_ne (by simp),
        List.length_cons, List.length_singleton]
      omega
  | @segment sendNext winSz sentData effectiveCwnd maxSize buf queue mac hread harp hsize hq _ _ hm =>
    obtain ⟨-, -, hwin, hcwnd, -⟩ := hb.hasRead hc hread
    have hmss := (hfront buf (by rw [hq]; rfl)).2 (hread.cutsSegment harp).1
    have hpos : 0 < maxSize := by omega
    have htext := h.text
    have hwaiting : s.cb.sender.outbox.waiting = buf :: queue := hq
    rw [hwaiting] at htext
    have hbuf : buf ≠ [] := fun he => htext (by rw [he]; exact List.mem_cons_self)
    have hlen := List.length_pos_iff.mpr hbuf
    have hpiece : buf.take maxSize ≠ [] := by
      rw [← List.length_pos_iff, List.length_take]
      omega
    rw [hm.outbox]
    refine h.send hpiece ?_ ?_
    · split
      next => exact fun hmem => htext (List.mem_cons_of_mem _ hmem)
      next hlong =>
        have hrest : buf.drop maxSize ≠ [] := by
          rw [← List.length_pos_iff, List.length_drop]
          omega
        simpa [hrest.symm] using fun hmem => htext (List.mem_cons_of_mem _ hmem)
    · rw [hwaiting, seqTotal_cons, sequenceLength_of_ne hbuf, List.length_take]
      split
      next => omega
      next hlong =>
        have hrest : buf.drop maxSize ≠ [] := by
          rw [← List.length_pos_iff, List.length_drop]
          omega
        rw [seqTotal_cons, sequenceLength_of_ne hrest, List.length_drop]
        omega

theorem counted_step (h : Running r ∧ r.socket.cb.sender.outbox.Counted) (hok : r.FitsPacket e ∧ r.KeepsCount e)
    (hs : r.step e = some r') : Running r' ∧ r'.socket.cb.sender.outbox.Counted := by
  obtain ⟨hrun, hcount⟩ := h
  obtain ⟨event, env⟩ := e
  obtain ⟨hstep, hrun'⟩ := hrun.step hok.1 hs
  refine ⟨hrun', ?_⟩
  cases hstep with
  | received _ hr =>
    obtain ⟨hnext, hwaiting, hunsent⟩ := hr.ahead
    exact ⟨by rw [hwaiting]; exact hcount.text, by rw [hunsent, hnext, hwaiting]; exact hcount.unsentSeqNo,
      by rw [hwaiting]; exact hcount.short⟩
  | popped _ hcb => rwa [hcb, pollRecv_sender]
  | refused hsocket => rwa [hsocket]
  | @sentNow buf cb₁ hh _ _ hnow hm =>
    rw [hh.same.sender, hm.outbox]
    exact hcount.sendNow hnow.1 buf
  | @queued buf cb₁ hh hopen _ hlater hm =>
    have hcounts : QueueCounts r.socket.cb buf env := by
      rcases hh.event with ⟨he, -⟩ | ⟨he, rfl, -⟩
      · dsimp only at he
        subst he
        exact hok.2
      · dsimp only at he
        subst he
        exact hok.2
    obtain ⟨hbuf, hshort⟩ := hcounts hopen hlater
    rw [hh.same.sender, hm.outbox]
    exact hcount.queue hbuf hshort
  | turn he ht =>
    dsimp only at he
    subst he
    exact counted_turn hcount hrun.inFlight.toCoherent hrun.inFlight.toWithinHalf hok.2 ht
  | resent _ _ hm => rwa [hm.outbox]

/-- SND.NXT counts what is on its way beyond SND.UNA, and the unsent sequence number counts what waits beyond SND.NXT,
which differs from it as long as something waits. -/
theorem sendRun_counts (ho : Opened cb) (hp : Admits SocketRun.step SocketRun.FitsPacket (.start ⟨cb, .top⟩) es)
    (hk : Admits SocketRun.step SocketRun.KeepsCount (.start ⟨cb, .top⟩) es)
    (hr : run SocketRun.step (.start ⟨cb, .top⟩) es = some r) :
    (r.socket.cb.sender.sendNext - r.socket.cb.sender.sendUnacked).toNat =
        seqTotal (r.socket.cb.sender.unackedQueue.map UnackedSegment.bytes) ∧
      (r.socket.cb.sender.unsentSeqNo - r.socket.cb.sender.sendNext).toNat =
        seqTotal r.socket.cb.sender.unsentQueue ∧
      (r.socket.cb.sender.unsentQueue ≠ [] →
        r.socket.cb.sender.unsentSeqNo ≠ r.socket.cb.sender.sendNext) := by
  have hstart : (SocketRun.start ⟨cb, .top⟩).socket.cb.sender.outbox.Counted :=
    ⟨by simp [SocketRun.start, Sender.outbox, ho.unsentQueue],
      by simp [SocketRun.start, Sender.outbox, ho.unsentQueue, ho.unsentSeqNo, ho.sendNext, SeqNumber.add_ofNat_zero],
      by simp [SocketRun.start, Sender.outbox, ho.unsentQueue]⟩
  obtain ⟨hrun, hcount⟩ := run_reaches (fun _ _ _ h hok hs => counted_step h hok hs) ⟨ho.running, hstart⟩ (hp.and hk) hr
  refine ⟨hrun.inFlight.outstanding, hcount.distance, fun hne heq => ?_⟩
  have hdistance := hcount.distance
  have hpos := seqTotal_pos hne
  have hn := r.socket.cb.sender.sendNext.toNat_lt
  change (r.socket.cb.sender.unsentSeqNo - r.socket.cb.sender.sendNext).toNat =
    seqTotal r.socket.cb.sender.unsentQueue at hdistance
  rw [heq, SeqNumber.toNat_sub] at hdistance
  omega

end

theorem sendRun_counts_sample : ∃ r, run SocketRun.step (.start ⟨closedWindow, .top⟩)
      [(.push [1, 2], linkEnv), (.background, linkEnv)] = some r ∧
    (r.socket.cb.sender.unsentSeqNo - r.socket.cb.sender.sendNext).toNat = 1 ∧
    r.socket.cb.sender.unsentSeqNo ≠ r.socket.cb.sender.sendNext := by
  obtain ⟨r, hr, htotal, hne⟩ : ∃ r, run SocketRun.step (.start ⟨closedWindow, .top⟩)
      [(.push [1, 2], linkEnv), (.background, linkEnv)] = some r ∧ seqTotal r.socket.cb.sender.unsentQueue = 1 ∧
      r.socket.cb.sender.unsentQueue ≠ [] := ⟨_, rfl, rfl, by decide⟩
  obtain ⟨-, hcount, hvisible⟩ := sendRun_counts closedWindow_opened (by decide) (by decide) hr
  exact ⟨r, hr, hcount.trans htotal, hvisible hne⟩

/-- A FIN that a closed window keeps waiting does not show in the unsent sequence number. -/
theorem sendRun_counts_fin : ∃ r, Opened closedWindow ∧
    Admits SocketRun.step SocketRun.FitsPacket (.start ⟨closedWindow, .top⟩) [(.close, linkEnv)] ∧
    run SocketRun.step (.start ⟨closedWindow, .top⟩) [(.close, linkEnv)] = some r ∧
    r.socket.cb.sender.unsentQueue = [[]] ∧ seqTotal r.socket.cb.sender.unsentQueue = 1 ∧
    r.socket.cb.sender.unsentSeqNo = r.socket.cb.sender.sendNext :=
  ⟨_, closedWindow_opened, by decide, rfl, rfl, rfl, rfl⟩

end Capybara
