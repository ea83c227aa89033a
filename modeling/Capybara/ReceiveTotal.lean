import Capybara.WindowAccounting

namespace Capybara

open ControlBlock

/-- The first `n` sequence numbers of the buffers do not go past an end-of-send marker. -/
def StopsAtMarker (bufs : List Buffer) (n : Nat) : Prop :=
  ∀ i < bufs.length, bufs[i]? = some [] → n ≤ seqTotal (bufs.take i) + 1

instance (bufs : List Buffer) (n : Nat) : Decidable (StopsAtMarker bufs n) :=
  inferInstanceAs (Decidable (∀ i < bufs.length, _))

/-- A new ACK number is not half the sequence space ahead with nothing on its way, and it does not go past an
end-of-send marker. -/
def AckFits (cb : ControlBlock) (header : TcpHeader) : Prop :=
  cb.sender.sendUnacked.lt header.ackNum = true →
    ¬(cb.sender.sendNext = cb.sender.sendUnacked ∧ (header.ackNum - cb.sender.sendUnacked).toNat = 2 ^ 31) ∧
      StopsAtMarker cb.sender.outbox.inFlight (header.ackNum - cb.sender.sendUnacked).toNat

instance (cb : ControlBlock) (header : TcpHeader) : Decidable (AckFits cb header) :=
  inferInstanceAs (Decidable (_ → _))

/-- A FIN does not come in state CLOSED, nor with the ACK of everything sent in state LAST-ACK. -/
def FinFits (cb : ControlBlock) (s : Incoming) : Prop :=
  cb.finArrives s = true → cb.state ≠ .closed ∧ ¬(cb.state = .lastAck ∧
    cb.sender.sendUnacked.lt s.header.ackNum = true ∧ s.header.ackNum = cb.sender.sendNext)

instance (cb : ControlBlock) (s : Incoming) : Decidable (FinFits cb s) := inferInstanceAs (Decidable (_ → _))

/-- The segments that `receive` does not panic at: no misfit while the window is zero, and if the segment is processed,
an ACK number that fits, and no FIN where it cannot come. -/
def Bearable (cb : ControlBlock) (header : TcpHeader) (data : Buffer) : Prop :=
  (∀ windowSize, cb.getReceiveWindowSize = some windowSize →
      ¬ZeroWindowMisfit cb.receiver.receiveNext windowSize header data) ∧
    ∀ s, cb.processed header data = some s →
      AckFits cb s.header ∧ (s.segStart = cb.receiver.receiveNext → FinFits cb s)

instance (cb : ControlBlock) (header : TcpHeader) (data : Buffer) : Decidable (Bearable cb header data) :=
  have : Decidable (∀ s, cb.processed header data = some s →
      AckFits cb s.header ∧ (s.segStart = cb.receiver.receiveNext → FinFits cb s)) := inferInstance
  inferInstanceAs (Decidable ((∀ windowSize, cb.getReceiveWindowSize = some windowSize → _) ∧ _))

theorem StopsAtMarker.cons {buf : Buffer} {bufs : List Buffer} {m n : Nat} (h : StopsAtMarker bufs n)
    (hm : m ≤ n + sequenceLength buf) (hbuf : buf ≠ []) : StopsAtMarker (buf :: bufs) m := by
  intro i hi hempty
  cases i with
  | zero =>
    rw [List.getElem?_cons_zero, Option.some.injEq] at hempty
    exact absurd hempty hbuf
  | succ i =>
    have hrest := h i (by rw [List.length_cons] at hi; omega) (by rwa [List.getElem?_cons_succ] at hempty)
    rw [List.take_succ_cons, seqTotal_cons]
    omega

theorem StopsAtMarker.of_le {bufs : List Buffer} {n : Nat} (h : n ≤ 1) : StopsAtMarker bufs n :=
  fun _ _ _ => by omega

/-- Removing acknowledged data stops at an end-of-send marker, or fails. -/
theorem removeAcknowledgedData_stops {queue queue' : List UnackedSegment} {n : Nat}
    (h : Sender.removeAcknowledgedData queue n = some queue') :
    StopsAtMarker (queue.map UnackedSegment.bytes) n := by
  fun_induction Sender.removeAcknowledgedData queue n with
  | case1 => exact .of_le (Nat.zero_le _)
  | case2 => cases h
  | case3 segment queue n hlong =>
    have hne : segment.bytes ≠ [] := fun he => by simp [he] at hlong
    have hlen := length_le_sequenceLength segment.bytes
    exact @StopsAtMarker.cons segment.bytes _ (n + 1) 0 (.of_le (Nat.zero_le _)) (by omega) hne
  | case4 segment queue n hlong hempty hlast => exact .of_le (by omega)
  | case5 => cases h
  | case6 segment queue n hlong hne ih =>
    have hbuf : segment.bytes ≠ [] := fun he => hne (by rw [he]; rfl)
    have hlen := length_le_sequenceLength segment.bytes
    exact @StopsAtMarker.cons segment.bytes _ (n + 1) _ (ih h) (by omega) hbuf

theorem removeAcknowledgedData_isSome_iff {queue : List UnackedSegment} {n : Nat} :
    (Sender.removeAcknowledgedData queue n).isSome = true ↔
      n ≤ seqTotal (queue.map UnackedSegment.bytes) ∧ StopsAtMarker (queue.map UnackedSegment.bytes) n := by
  constructor
  · intro h
    obtain ⟨queue', hq⟩ := Option.isSome_iff_exists.mp h
    have htotal := removeAcknowledgedData_total hq
    exact ⟨by omega, removeAcknowledgedData_stops hq⟩
  · rintro ⟨hn, hstops⟩
    obtain ⟨queue', hq⟩ := removeAcknowledgedData_isSome hn fun front back heq => by
      have hmarker := hstops front.length (by rw [heq]; simp) (by rw [heq]; simp)
      rwa [heq, List.take_left] at hmarker
    exact Option.isSome_iff_exists.mpr ⟨queue', hq⟩

section

variable {s : EstablishedSocket} {cb cb₁ : ControlBlock} {unread : Nat} {header : TcpHeader} {data : Buffer} {env : Env}
  {t : Incoming}

theorem updateSendWindow_isSome {sender : Sender} (h : sender.windowScale.toNat < 16) (header : TcpHeader) :
    (sender.updateSendWindow header).isSome = true := by
  unfold Sender.updateSendWindow
  split
  · rw [if_pos (by omega)]
    rfl
  · rfl

/-- An ACK number up to SND.NXT acknowledges what is on its way, but for the one half a turn ahead of nothing. -/
theorem InFlight.acknowledges_iff (h : InFlight s) (hnew : s.cb.sender.sendUnacked.lt header.ackNum = true)
    (hsent : header.ackNum.le s.cb.sender.sendNext = true) :
    (header.ackNum - s.cb.sender.sendUnacked).toNat ≤ seqTotal s.cb.sender.outbox.inFlight ↔
      ¬(s.cb.sender.sendNext = s.cb.sender.sendUnacked ∧ (header.ackNum - s.cb.sender.sendUnacked).toNat = 2 ^ 31) := by
  have hb := h.bounded
  have hout := h.outstanding
  have hu := s.cb.sender.sendUnacked.toNat_lt
  have hn := s.cb.sender.sendNext.toNat_lt
  have ha := header.ackNum.toNat_lt
  rw [SeqNumber.lt_iff] at hnew
  rw [SeqNumber.le_iff] at hsent
  rw [← SeqNumber.toNat_inj]
  simp only [SeqNumber.toNat_sub] at hnew hsent hout ⊢
  omega

theorem processAck_isSome_iff (h : InFlight s) (ha : AckAllows s.cb header) :
    (s.cb.processAck header env).isSome = true ↔ AckFits s.cb header := by
  unfold processAck AckFits
  dsimp only
  by_cases hnew : s.cb.sender.sendUnacked.lt header.ackNum = true
  · have hsent := ha hnew
    have hremove := @removeAcknowledgedData_isSome_iff s.cb.sender.unackedQueue
      (header.ackNum - s.cb.sender.sendUnacked).toNat
    change _ ↔ _ ≤ seqTotal s.cb.sender.outbox.inFlight ∧ StopsAtMarker s.cb.sender.outbox.inFlight _ at hremove
    rw [h.acknowledges_iff hnew hsent] at hremove
    rw [if_pos hnew, if_pos hsent]
    simp only [hnew, forall_const, ← hremove]
    cases hq : Sender.removeAcknowledgedData s.cb.sender.unackedQueue
        (header.ackNum - s.cb.sender.sendUnacked).toNat with
    | none => rfl
    | some queue =>
      obtain ⟨sender, hsender⟩ := Option.isSome_iff_exists.mp (@updateSendWindow_isSome { s.cb.sender with
        unackedQueue := queue, sendUnacked := header.ackNum } h.scale header)
      simp only [Option.bind_eq_bind, Option.bind_some, hsender]
      split <;> simp
  · simp [hnew]

theorem ControlBlock.AckTakes.state (ha : AckTakes cb header cb₁) :
    cb₁.state = if cb.sender.sendUnacked.lt header.ackNum = true ∧ header.ackNum = cb.sender.sendNext
      then stateAfterAck cb.state else cb.state := by
  rcases ha.acked with ⟨hold, rfl⟩ | ⟨hnew, -, -, -, hstate⟩
  · rw [if_neg (by simp [hold])]
  · rw [hstate]
    simp only [hnew, true_and]

theorem stateAfterPeerFin_isSome_iff {state : State} : (stateAfterPeerFin state).isSome = true ↔ state ≠ .closed := by
  cases state <;> simp [stateAfterPeerFin]

/-- Whether the FIN of a segment finds the connection closed, before or after its ACK. -/
theorem ControlBlock.AckTakes.finFits (ha : AckTakes cb t.header cb₁) : FinFits cb t ↔
    (cb₁.finArrives t = true → (stateAfterPeerFin cb₁.state).isSome = true) := by
  rw [stateAfterPeerFin_isSome_iff, ha.finArrives, ha.state, FinFits]
  by_cases hall : cb.sender.sendUnacked.lt t.header.ackNum = true ∧ t.header.ackNum = cb.sender.sendNext
  · rw [if_pos hall]
    simp only [iff_true_intro hall]
    cases cb.state <;> simp [stateAfterAck]
  · rw [if_neg hall]
    cases cb.state <;> simp [hall]

/-- The block as it is before the ACK of a segment at RCV.NXT goes out. -/
theorem takeText_inOrder (hstart : t.segStart = cb.receiver.receiveNext) : ∃ cb₁,
    cb.takeText t = some (!(cb.arrivals t).isEmpty, cb.finArrives t, cb₁) ∧ cb₁.state = cb.state ∧
      (cb.finArrives t = false → InOrder cb t cb₁) ∧
      ∀ state, cb.finArrives t = true → stateAfterPeerFin cb.state = some state → InOrder cb t (cb₁.afterFin state) := by
  obtain ⟨receiver, htext, hqueue, hnext, hreader⟩ := takeText_eq hstart
  refine ⟨_, htext, rfl, fun hfin => ?_, fun state hfin hstate => ?_⟩
  · refine ⟨.nothing rfl, rfl, hqueue, ?_, hreader, rfl, rfl, rfl, rfl, rfl, ?_⟩
    · rw [hfin, Bool.toNat_false, Nat.add_zero]
      exact hnext
    · rw [if_neg (by simp [hfin])]
  · refine ⟨.nothing rfl, rfl, hqueue, ?_, hreader, rfl, rfl, rfl, rfl, rfl, ?_⟩
    · rw [hfin, Bool.toNat_true, ← SeqNumber.add_ofNat_add, ← hnext]
      rfl
    · rw [if_pos hfin]
      exact hstate

/-- The text and FIN of a segment at RCV.NXT are taken, unless the FIN finds the connection closed. -/
theorem receiveInOrder_isSome_iff (h : Accounts cb unread) (hstart : t.segStart = cb.receiver.receiveNext)
    (hle : unread + (textOf (cb.arrivals t)).length + (cb.finArrives t).toNat ≤ cb.receiveBufferSize.toNat) :
    (cb.receiveInOrder t env).isSome = true ↔
      (cb.finArrives t = true → (stateAfterPeerFin cb.state).isSome = true) := by
  obtain ⟨cb₁, htext, hsame, hopen, hfinal⟩ := takeText_inOrder hstart
  rw [receiveInOrder_eq, htext, Option.bind_some]
  dsimp only
  cases hfin : cb.finArrives t with
  | true =>
    simp only [if_true, true_implies, processFin, Option.bind_eq_bind]
    have hstate : cb₁.disableStats.state = cb.state := hsame
    rw [hstate]
    cases hafter : stateAfterPeerFin cb.state with
    | none => simp
    | some state =>
      obtain ⟨header, hheader⟩ := ((hfinal state hfin hafter).accounts h hle).tcpHeader
      obtain ⟨cb₂, hsend⟩ := sendAck_of_header hheader false env
      simp only [Option.bind_some, Option.isSome_some, iff_true]
      exact Option.isSome_iff_exists.mpr ⟨cb₂, hsend⟩
  | false =>
    obtain ⟨header, hheader⟩ := ((hopen hfin).accounts h hle).tcpHeader
    obtain ⟨cb₂, hsend, -⟩ := scheduleAck_of_header hheader env
    simp only [Bool.false_eq_true, if_false, false_implies, iff_true]
    split
    · rw [hsend]
      rfl
    · rfl

/-- A segment after RCV.NXT is always stored. -/
theorem receiveOutOfOrder_isSome (h : Accounts cb unread) (hp : Parsed t) (hsyn : t.header.syn = false) :
    (cb.receiveOutOfOrder t env).isSome = true := by
  rw [receiveOutOfOrder_eq hp hsyn]
  split
  next =>
    dsimp only
    obtain ⟨fin, hfin⟩ : ∃ fin, (if t.header.fin = true then cb.storeOutOfOrderFin t.segEnd else cb) =
        { cb with outOfOrderFin := fin } := by
      split
      · exact ⟨some t.segEnd, rfl⟩
      · exact ⟨cb.outOfOrderFin, rfl⟩
    obtain ⟨store, hstore⟩ : ∃ store, (if 0 < t.data.length then
        (if t.header.fin = true then cb.storeOutOfOrderFin t.segEnd else cb).storeOutOfOrderSegment t.segStart
          (t.segStart + SeqNumber.ofNat (t.data.length - 1)) t.data
        else some (if t.header.fin = true then cb.storeOutOfOrderFin t.segEnd else cb)) =
          some { cb with outOfOrderFin := fin, outOfOrder := store } := by
      rw [hfin]
      split
      next hpos =>
        obtain ⟨store, hplace, -⟩ := @placeSegment_shaped (cb.outOfOrder.length + 1) _ t.segStart _ _ h.stored
          ⟨hpos, hp.short⟩ rfl (Nat.lt_succ_self _)
        exact ⟨store, by simp only [storeOutOfOrderSegment, hplace, Option.bind_eq_bind, Option.bind_some]⟩
      next => exact ⟨cb.outOfOrder, rfl⟩
    rw [hstore, Option.bind_some]
    obtain ⟨header, hheader⟩ := h.tcpHeader
    obtain ⟨cb₂, hsend⟩ := @sendAck_of_header { cb with outOfOrderFin := fin, outOfOrder := store } header hheader
      false env
    exact Option.isSome_iff_exists.mpr ⟨cb₂, hsend⟩
  next => rfl

/-- A segment in the window that is not processed is dropped or resets the connection. -/
theorem receiveTrimmed_of_idle (h : Accounts cb unread) (ht : cb.trimToWindow header data = some (some t))
    (hp : ¬Processed cb header data t) :
    (cb.receiveTrimmed t cb.receiver.receiveNext env).isSome = true := by
  unfold receiveTrimmed
  split
  next => rfl
  next hrst =>
    split
    next => rfl
    next hsyn =>
      split
      next => rfl
      next hack =>
        obtain ⟨hnew, hbeyond⟩ : cb.sender.sendUnacked.lt t.header.ackNum = true ∧
            ¬t.header.ackNum.le cb.sender.sendNext = true := by
          by_contra hno
          refine hp ⟨ht, by simpa using hrst, by simpa using hsyn, by simpa using hack, fun hnew => ?_⟩
          by_contra hbeyond
          exact hno ⟨hnew, hbeyond⟩
        obtain ⟨ack, hheader⟩ := h.tcpHeader
        obtain ⟨cb₀, hsend⟩ := sendAck_of_header hheader false env
        simp only [processAck, if_pos hnew, if_neg hbeyond, Option.bind_eq_bind, Option.bind_some, hsend,
          Option.isSome_some]

theorem receiveTrimmed_isSome_iff (h : InFlight s) (ha : Accounts s.cb unread) (hd : data.length < 2 ^ 16)
    (hroom : RoomFor s.cb header data) (hp : Processed s.cb header data t) :
    (s.cb.receiveTrimmed t s.cb.receiver.receiveNext env).isSome = true ↔
      AckFits s.cb t.header ∧ (t.segStart = s.cb.receiver.receiveNext → FinFits s.cb t) := by
  have hfits := @processAck_isSome_iff s t.header env h hp.allows
  simp only [receiveTrimmed, hp.noRst, hp.noSyn, hp.ack, Bool.false_eq_true, if_false, Bool.not_true]
  cases hack : s.cb.processAck t.header env with
  | none =>
    rw [hack] at hfits
    simp [← hfits]
  | some taken =>
    rw [hack, Option.isSome_some, eq_self, true_iff] at hfits
    simp only [hfits, true_and, Option.bind_eq_bind, Option.bind_some]
    rcases processAck_cases hack with ⟨-, hno⟩ | ⟨cb₁, rfl, -, htakes⟩
    · exact absurd hp.allows hno
    · have ha₁ := ha.sameInbound htakes.inbound
      dsimp only
      by_cases hstart : t.segStart = s.cb.receiver.receiveNext
      · have hle := ha.arrivals_le hroom hd hp hstart
        rw [← htakes.arrivals, ← htakes.finArrives, ← htakes.inbound.receiveBufferSize] at hle
        rw [if_neg (by simp [hstart]), htakes.finFits,
          receiveInOrder_isSome_iff ha₁ (by rw [hstart, htakes.inbound.receiveNext]) hle]
        simp [hstart]
      · rw [if_pos hstart, receiveOutOfOrder_isSome ha₁ (ha.kept hd hp.kept).parsed hp.noSyn]
        simp [hstart]

/-- `receive` goes through exactly for the bearable segments. -/
theorem receive_isSome_iff (h : InFlight s) (ha : Accounts s.cb unread) (hd : data.length < 2 ^ 16)
    (hroom : RoomFor s.cb header data) : (s.cb.receive header data env).isSome = true ↔ Bearable s.cb header data := by
  have hwin := ha.getReceiveWindowSize
  have hb := ha.buffer
  by_cases hm : ZeroWindowMisfit s.cb.receiver.receiveNext (s.cb.receiveBufferSize.toNat - unread) header data
  · rw [ControlBlock.receive, trimToWindow_of_misfit hd hwin hm]
    simp only [Option.bind_eq_bind, Option.bind_none, Option.isSome_none, Bool.false_eq_true, false_iff]
    exact fun hbear => hbear.1 _ hwin hm
  · have hfirst : ∀ windowSize, s.cb.getReceiveWindowSize = some windowSize →
        ¬ZeroWindowMisfit s.cb.receiver.receiveNext windowSize header data := by
      intro windowSize hw
      rw [hwin, Option.some.injEq] at hw
      rwa [← hw]
    obtain ⟨kept, ht, -⟩ := trimToWindow_kept hd hwin (by omega) hm
    rw [ControlBlock.receive, ht, Option.bind_eq_bind, Option.bind_some]
    cases kept with
    | none =>
      have hbear : Bearable s.cb header data := ⟨hfirst, fun t hp => by
        rw [processed_eq_some] at hp
        rw [hp.kept] at ht
        cases ht⟩
      obtain ⟨ack, hheader⟩ := ha.tcpHeader
      obtain ⟨cb₀, hsend⟩ := sendAck_of_header hheader false env
      simp only [hbear, iff_true]
      split
      · rfl
      · rw [hsend]
        rfl
    | some t =>
      have honly : ∀ t', s.cb.processed header data = some t' → t' = t := by
        intro t' hp
        rw [processed_eq_some] at hp
        rw [hp.kept] at ht
        cases ht
        rfl
      by_cases hp : Processed s.cb header data t
      · rw [receiveTrimmed_isSome_iff h ha hd hroom hp]
        refine ⟨fun hfits => ⟨hfirst, fun t' hp' => ?_⟩, fun hbear => hbear.2 t (processed_eq_some.mpr hp)⟩
        rw [honly t' hp']
        exact hfits
      · simp only [receiveTrimmed_of_idle ha ht hp, true_iff]
        refine ⟨hfirst, fun t' hp' => ?_⟩
        have heq := honly t' hp'
        rw [heq] at hp'
        exact absurd (processed_eq_some.mp hp') hp

end

end Capybara
