import Capybara.SendPhase

namespace Capybara

open ControlBlock Runs

/-- A connection, the text that its pushes were accepted with, and SND.NXT counted from the first sequence number
without wrapping around. -/
structure StreamRun where
  conn : SocketRun
  pushed : Buffer
  next : Nat

namespace StreamRun

def start (s : EstablishedSocket) : StreamRun := ⟨.start s, [], 0⟩

def cb (s : StreamRun) : ControlBlock := s.conn.socket.cb

/-- The text of a push that returned no error. -/
def accepted (results : List (Except Fail Unit)) (e : SocketEvent) : Buffer :=
  match e, results.getLast? with
  | .push buf, some (.ok _) => buf
  | _, _ => []

/-- The history after the connection went on to `conn`. -/
def follow (s : StreamRun) (e : SocketEvent) (conn : SocketRun) : StreamRun where
  conn := conn
  pushed := s.pushed ++ accepted conn.results e
  next := s.next + (conn.socket.cb.sender.sendNext - s.cb.sender.sendNext).toNat

def step (s : StreamRun) (e : SocketEvent × Env) : Option StreamRun := (s.conn.step e).map (s.follow e.1)

/-- The position in the stream that a sequence number up to SND.NXT stands for. -/
def position (s : StreamRun) (seqNum : SeqNumber) : Nat := s.next - (s.cb.sender.sendNext - seqNum).toNat

/-- The text is the part of what was pushed that the sequence number stands for. The end-of-send marker comes after all
of it, when the user is done. -/
def Places (s : StreamRun) (seqNum : SeqNumber) (buf : Buffer) : Prop :=
  ∃ before after, s.pushed = before ++ buf ++ after ∧
    before.length + (s.cb.sender.sendNext - seqNum).toNat = s.next ∧
    (buf = [] → after = [] ∧ s.cb.userIsDoneSending = true)

/-- While a window probe is repeated nothing goes out behind it, since the rest of its buffer waits. -/
def ProbesLast (s : StreamRun) : Prop :=
  ∀ buf seqNum mac, s.conn.socket.sender = .probing buf seqNum mac →
    s.cb.sender.unsentQueue ≠ [] ∧ s.Places seqNum buf

end StreamRun

/-- What was pushed is what was acknowledged, what is on its way and what waits, and SND.NXT counts what was sent. -/
def Carries (cb : ControlBlock) (pushed : Buffer) (next : Nat) : Prop :=
  ∃ acked, pushed = acked ++ cb.sender.outbox.inFlight.flatten ++ cb.sender.outbox.waiting.flatten ∧
    next = acked.length + cb.sender.outbox.inFlight.flatten.length + cb.finSent.toNat

/-- What a run keeps whose first sequence number is `isn`. -/
structure Streams (isn : SeqNumber) (s : StreamRun) : Prop where
  running : Running s.conn
  phase : SendPhase s.cb
  numbered : s.cb.sender.sendNext = isn + SeqNumber.ofNat s.next
  carries : Carries s.cb s.pushed s.next
  probes : s.ProbesLast

/-- What a step does to the stream. -/
structure Follows (s s' : StreamRun) : Prop where
  carries : Carries s'.cb s'.pushed s'.next
  probes : s'.ProbesLast
  emits : ∃ sent, Emits s.cb s'.cb sent ∧ ∀ seqNum buf, sent = some (seqNum, buf) → s'.Places seqNum buf

open StreamRun

section

variable {isn seqNum : SeqNumber} {s : StreamRun} {cb cb' : ControlBlock} {pushed piece more : Buffer} {next : Nat}
  {e : SocketEvent} {env : Env} {conn : SocketRun}

theorem Carries.acknowledged (h : Carries cb pushed next)
    (htaken : ∃ taken, cb.sender.outbox.inFlight.flatten = taken ++ cb'.sender.outbox.inFlight.flatten)
    (hw : cb'.sender.outbox.waiting = cb.sender.outbox.waiting) (hf : cb'.finSent = cb.finSent) :
    Carries cb' pushed next := by
  obtain ⟨acked, hpushed, hnext⟩ := h
  obtain ⟨taken, htaken⟩ := htaken
  refine ⟨acked ++ taken, ?_, ?_⟩
  · rw [hpushed, htaken, hw, List.append_assoc acked taken]
  · rw [hnext, htaken, hf, List.length_append, List.length_append]
    omega

theorem Carries.queue {buf : Buffer} (h : Carries cb pushed next)
    (hin : cb'.sender.outbox.inFlight = cb.sender.outbox.inFlight)
    (hw : cb'.sender.outbox.waiting = cb.sender.outbox.waiting ++ [buf]) (hf : cb'.finSent = cb.finSent) :
    Carries cb' (pushed ++ buf) next := by
  obtain ⟨acked, hpushed, hnext⟩ := h
  refine ⟨acked, ?_, by rw [hnext, hin, hf]⟩
  rw [hpushed, hin, hw, List.flatten_append, List.append_assoc]
  simp

/-- The next piece of what waits goes out. -/
theorem Carries.send (h : Carries cb pushed next) (hopen : cb.finSent = false) (hf : cb'.finSent = piece.isEmpty)
    (hin : cb'.sender.outbox.inFlight = cb.sender.outbox.inFlight ++ [piece])
    (hw : cb.sender.outbox.waiting.flatten ++ more = piece ++ cb'.sender.outbox.waiting.flatten) :
    Carries cb' (pushed ++ more) (next + sequenceLength piece) ∧
      ∃ before, pushed ++ more = before ++ piece ++ cb'.sender.outbox.waiting.flatten ∧ before.length = next := by
  obtain ⟨acked, hpushed, hnext⟩ := h
  have hall : pushed ++ more =
      acked ++ cb.sender.outbox.inFlight.flatten ++ piece ++ cb'.sender.outbox.waiting.flatten := by
    rw [hpushed, List.append_assoc, hw, List.append_assoc _ piece]
  refine ⟨⟨acked, ?_, ?_⟩, acked ++ cb.sender.outbox.inFlight.flatten, hall, ?_⟩
  · rw [hall, hin, List.flatten_append, ← List.append_assoc]
    simp
  · rw [hnext, hopen, hf, hin, List.flatten_append, List.length_append, sequenceLength]
    cases piece with
    | nil => simp
    | cons byte piece => simp; omega
  · rw [List.length_append, hnext, hopen]
    simp

theorem seqTotal_text {bufs : List Buffer} (h : [] ∉ bufs) : seqTotal bufs = bufs.flatten.length := by
  induction bufs with
  | nil => rfl
  | cons buf bufs ih =>
    rw [List.mem_cons, not_or] at h
    rw [seqTotal_cons, List.flatten_cons, List.length_append, ih h.2, sequenceLength_of_ne (Ne.symm h.1)]

/-- What is on its way takes its text's sequence numbers, and one more for a FIN. -/
theorem SendPhase.seqTotal (h : SendPhase cb) (hne : cb.sender.outbox.inFlight ≠ []) :
    Capybara.seqTotal cb.sender.outbox.inFlight = cb.sender.outbox.inFlight.flatten.length + cb.finSent.toNat := by
  cases h with
  | sending hfin htext => rw [seqTotal_text htext, hfin, Bool.toNat_false, Nat.add_zero]
  | finished hfin _ _ hlast =>
    obtain ⟨front, hfront, htext⟩ := hlast.resolve_left hne
    rw [hfront, seqTotal_append, seqTotal_text htext, hfin]
    simp

theorem StreamRun.Places.position (h : s.Places seqNum piece) :
    ∃ before after, s.pushed = before ++ piece ++ after ∧ before.length = s.position seqNum := by
  obtain ⟨before, after, hpushed, hlen, -⟩ := h
  exact ⟨before, after, hpushed, by rw [StreamRun.position]; omega⟩

theorem StreamRun.Places.numbered (h : s.Places seqNum piece) (hn : s.cb.sender.sendNext = isn + SeqNumber.ofNat s.next) :
    seqNum = isn + SeqNumber.ofNat (s.position seqNum) := by
  obtain ⟨before, after, -, hlen, -⟩ := h
  have hi := isn.toNat_lt
  have hs := seqNum.toNat_lt
  apply SeqNumber.toNat_inj.mp
  rw [StreamRun.position, SeqNumber.toNat_add_ofNat]
  rw [hn] at hlen ⊢
  simp only [SeqNumber.toNat_sub, SeqNumber.toNat_add_ofNat] at hlen ⊢
  omega

theorem StreamRun.Places.fin (h : s.Places seqNum []) :
    s.position seqNum = s.pushed.length ∧ s.cb.userIsDoneSending = true := by
  obtain ⟨before, after, hpushed, hlen, hlast⟩ := h
  obtain ⟨rfl, hdone⟩ := hlast rfl
  refine ⟨?_, hdone⟩
  rw [hpushed, StreamRun.position, List.append_nil, List.append_nil]
  omega

/-- The oldest segment on its way is where SND.UNA stands. -/
theorem Streams.oldest {buf : Buffer} {rest : List Buffer} (h : Streams isn s)
    (hq : s.cb.sender.outbox.inFlight = buf :: rest) : s.Places s.cb.sender.sendUnacked buf := by
  obtain ⟨acked, hpushed, hnext⟩ := h.carries
  have hout := h.running.inFlight.outstanding
  have htotal := h.phase.seqTotal (by rw [hq]; simp)
  refine ⟨acked, rest.flatten ++ s.cb.sender.outbox.waiting.flatten, ?_, ?_, fun hbuf => ?_⟩
  · rw [hpushed, hq, List.flatten_cons]
    simp
  · change (s.cb.sender.sendNext - s.cb.sender.sendUnacked).toNat = _ at hout
    rw [hout]
    change acked.length + seqTotal s.cb.sender.outbox.inFlight = _
    omega
  · have hphase := h.phase
    cases hphase with
    | sending _ htext =>
      rw [hq, hbuf] at htext
      exact absurd List.mem_cons_self htext
    | finished _ hdone hwait hlast =>
      obtain ⟨front, hfront, htext⟩ := hlast.resolve_left (by rw [hq]; simp)
      refine ⟨?_, hdone⟩
      rw [hq] at hfront
      cases front with
      | nil =>
        rw [hwait, (List.cons.inj hfront).2]
        rfl
      | cons first front =>
        rw [← (List.cons.inj hfront).1, hbuf] at htext
        exact absurd List.mem_cons_self htext

theorem accepted_handed {results : List (Except Fail Unit)} {cb₁ : ControlBlock} {buf : Buffer}
    (hh : Handed cb₁ e buf cb') : accepted (results ++ [.ok ()]) e = buf := by
  rcases hh.event with ⟨rfl, -⟩ | ⟨rfl, rfl, -⟩
  · simp [accepted]
  · rfl

theorem accepted_refused {results results' : List (Except Fail Unit)}
    (h : ∀ buf, e = .push buf → ∃ fail, results' = results ++ [.error fail]) : accepted results' e = [] := by
  cases e with
  | push buf =>
    obtain ⟨fail, rfl⟩ := h buf rfl
    simp [accepted]
  | _ => rfl

/-- Nothing is pushed and nothing is sent for the first time. -/
theorem Streams.still (h : Streams isn s) (hacc : accepted conn.results e = [])
    (hnext : conn.socket.cb.sender.sendNext = s.cb.sender.sendNext)
    (hwaiting : conn.socket.cb.sender.unsentQueue = s.cb.sender.unsentQueue)
    (hdone : conn.socket.cb.userIsDoneSending = s.cb.userIsDoneSending)
    (htask : ∀ buf seqNum mac, conn.socket.sender = .probing buf seqNum mac →
      s.conn.socket.sender = .probing buf seqNum mac) :
    (s.follow e conn).pushed = s.pushed ∧ (s.follow e conn).next = s.next ∧ (s.follow e conn).ProbesLast ∧
      ∀ seqNum buf, s.Places seqNum buf → (s.follow e conn).Places seqNum buf := by
  have hpushed : (s.follow e conn).pushed = s.pushed := by rw [follow, hacc, List.append_nil]
  have hsame : (s.follow e conn).next = s.next := by rw [follow, hnext, SeqNumber.sub_self_toNat, Nat.add_zero]
  have hplaces : ∀ seqNum buf, s.Places seqNum buf → (s.follow e conn).Places seqNum buf := by
    intro seqNum buf hp
    obtain ⟨before, after, htext, hlen, hlast⟩ := hp
    refine ⟨before, after, hpushed.trans htext, ?_, fun hbuf => ⟨(hlast hbuf).1, hdone.trans (hlast hbuf).2⟩⟩
    rw [hsame, ← hlen]
    change _ + (conn.socket.cb.sender.sendNext - seqNum).toNat = _
    rw [hnext]
  refine ⟨hpushed, hsame, fun buf seqNum mac hp => ?_, hplaces⟩
  obtain ⟨hne, hplace⟩ := h.probes buf seqNum mac (htask buf seqNum mac hp)
  refine ⟨?_, hplaces _ _ hplace⟩
  change conn.socket.cb.sender.unsentQueue ≠ []
  rw [hwaiting]
  exact hne

/-- A piece goes out for the first time. -/
theorem Streams.sends {cb₁ : ControlBlock} {o : Outbox} (h : Streams isn s) (hrun : Running conn)
    (hopen : s.cb.finSent = false) (hm : Moves s.cb cb₁ (some (s.cb.sender.sendNext, piece)) o)
    (hsender : conn.socket.cb.sender = cb₁.sender) (hrt : conn.socket.cb.rt = cb₁.rt)
    (hin : o.inFlight = s.cb.sender.outbox.inFlight ++ [piece])
    (hon : o.sendNext = s.cb.sender.sendNext + SeqNumber.ofNat (sequenceLength piece))
    (hw : s.cb.sender.outbox.waiting.flatten ++ accepted conn.results e = piece ++ o.waiting.flatten)
    (hlast : piece = [] → o.waiting = [] ∧ conn.socket.cb.userIsDoneSending = true) :
    Carries conn.socket.cb (s.follow e conn).pushed (s.follow e conn).next ∧
      (s.follow e conn).Places s.cb.sender.sendNext piece := by
  have hout : conn.socket.cb.sender.outbox = o := by rw [hsender, hm.outbox]
  have hf := hm.emitted.finSent
  rw [hopen, Bool.false_or] at hf
  have hfin : conn.socket.cb.finSent = piece.isEmpty := by rw [ControlBlock.finSent, hrt]; exact hf
  have hbound := hrun.inFlight.bounded
  rw [hout, hin, seqTotal_append, seqTotal_cons] at hbound
  have hnext : conn.socket.cb.sender.sendNext = o.sendNext := congrArg Outbox.sendNext hout
  have hmoved : (conn.socket.cb.sender.sendNext - s.cb.sender.sendNext).toNat = sequenceLength piece := by
    rw [hnext, hon]
    exact SeqNumber.add_ofNat_sub (by omega)
  have hsame : (s.follow e conn).next = s.next + sequenceLength piece := by rw [follow, hmoved]
  obtain ⟨hcarries, before, htext, hlen⟩ := @Carries.send _ conn.socket.cb _ _ (accepted conn.results e) _ h.carries hopen
    hfin (by rw [hout, hin]) (by rw [hout]; exact hw)
  refine ⟨by rw [hsame]; exact hcarries, before, _, htext, ?_, fun hpiece => ?_⟩
  · rw [hsame, hlen]
    exact congrArg (s.next + ·) hmoved
  · rw [hout, (hlast hpiece).1]
    exact ⟨rfl, (hlast hpiece).2⟩

theorem Follows.quiet {s' : StreamRun} (hc : Carries s'.cb s'.pushed s'.next) (hp : s'.ProbesLast)
    (he : Emits s.cb s'.cb none) : Follows s s' :=
  ⟨hc, hp, none, he, fun _ _ hx => by cases hx⟩

theorem Streams.received {header : TcpHeader} {data : Buffer} (h : Streams isn s)
    (hr : Received s.cb header data conn.socket.cb)
    (htask : conn.socket.sender = s.conn.socket.taskAfter conn.socket.cb) :
    Follows s (s.follow (.segment header data) conn) := by
  obtain ⟨hnext, hwaiting, -⟩ := hr.ahead
  have hacc : accepted conn.results (.segment header data) = [] := rfl
  obtain ⟨hpushed, hsame, hprobes, -⟩ := h.still hacc hnext hwaiting hr.done fun buf seqNum mac hp => by
    rcases taskAfter_cases s.conn.socket conn.socket.cb with ⟨hkept, -⟩ | ⟨htop, -⟩
    · exact hkept.symm.trans (htask.symm.trans hp)
    · cases htop.symm.trans (htask.symm.trans hp)
  refine .quiet ?_ hprobes hr.emits
  rw [hpushed, hsame]
  refine h.carries.acknowledged ?_ hwaiting (hr.emits.finSent.trans (Bool.or_false _))
  rcases hr.acknowledges with heq | ⟨n, hremove⟩
  · exact ⟨[], congrArg (fun q => (q.map UnackedSegment.bytes).flatten) heq.symm⟩
  · exact removeAcknowledgedData_flatten hremove

theorem Streams.popped (h : Streams isn s) (hcb : conn.socket.cb = s.cb.pollRecv.2)
    (htask : conn.socket.sender = s.conn.socket.sender) : Follows s (s.follow .pop conn) := by
  obtain ⟨hrt, -, hdone⟩ := pollRecv_outbound s.cb
  have hsender := pollRecv_sender s.cb
  rw [← hcb] at hrt hdone hsender
  have hacc : accepted conn.results .pop = [] := rfl
  obtain ⟨hpushed, hsame, hprobes, -⟩ := h.still hacc (by rw [hsender]) (by rw [hsender]) hdone
    fun _ _ _ hp => htask.symm.trans hp
  refine .quiet ?_ hprobes (.nothing hrt)
  rw [hpushed, hsame]
  refine h.carries.acknowledged ⟨[], ?_⟩ ?_ ?_
  · change _ = conn.socket.cb.sender.outbox.inFlight.flatten
    rw [hsender]
  · change conn.socket.cb.sender.outbox.waiting = _
    rw [hsender]
  · change conn.socket.cb.rt.any _ = _
    rw [hrt]
    rfl

theorem Streams.refused (h : Streams isn s) (hsocket : conn.socket = s.conn.socket)
    (hresults : ∀ buf, e = .push buf → ∃ fail, conn.results = s.conn.results ++ [.error fail]) :
    Follows s (s.follow e conn) := by
  have hcb : conn.socket.cb = s.cb := congrArg EstablishedSocket.cb hsocket
  obtain ⟨hpushed, hsame, hprobes, -⟩ := h.still (accepted_refused hresults) (by rw [hcb]) (by rw [hcb]) (by rw [hcb])
    fun _ _ _ hp => (congrArg EstablishedSocket.sender hsocket).symm.trans hp
  refine .quiet ?_ hprobes (.nothing (congrArg ControlBlock.rt hcb))
  rw [hpushed, hsame]
  change Carries conn.socket.cb _ _
  rw [hcb]
  exact h.carries

theorem Streams.sentNow {cb₁ : ControlBlock} {buf : Buffer} (h : Streams isn s) (hrun : Running conn)
    (hok : s.conn.SendsFinLast (e, env)) (hh : Handed cb₁ e buf conn.socket.cb)
    (hopen : s.cb.userIsDoneSending = false) (hnow : SendsNow s.cb buf env)
    (hm : Moves s.cb cb₁ (some (s.cb.sender.sendNext, buf)) (s.cb.sender.outbox.sendNow buf))
    (htask : conn.socket.sender = s.conn.socket.sender) (hresults : conn.results = s.conn.results ++ [.ok ()]) :
    Follows s (s.follow e conn) := by
  have hacc : accepted conn.results e = buf := by rw [hresults, accepted_handed hh]
  have hempty : s.cb.sender.outbox.waiting = [] := hnow.1
  obtain ⟨hcarries, hplace⟩ := h.sends hrun (h.phase.open (.inl hopen)) hm hh.same.sender hh.same.rt rfl rfl
    (by rw [hempty, hacc]; simp [Outbox.sendNow, Outbox.send, hempty]) fun hbuf => ⟨hempty, by
      subst hbuf
      rcases hh.event with ⟨rfl, -⟩ | ⟨-, -, hdone⟩
      · rcases hok rfl with hdone | hnot
        · exact absurd (hopen.symm.trans hdone) Bool.false_ne_true
        · exact absurd hnow hnot
      · exact hdone⟩
  refine ⟨hcarries, fun piece seqNum mac hp => ?_, _, hm.emitted.trans hh.same.rt, fun seqNum piece hx => ?_⟩
  · exact absurd hnow.1 (h.probes piece seqNum mac (htask.symm.trans hp)).1
  · cases hx
    exact hplace

theorem Streams.queued {cb₁ : ControlBlock} {buf : Buffer} (h : Streams isn s) (hh : Handed cb₁ e buf conn.socket.cb)
    (hm : Moves s.cb cb₁ none (s.cb.sender.outbox.queue buf)) (htask : conn.socket.sender = s.conn.socket.sender)
    (hresults : conn.results = s.conn.results ++ [.ok ()]) : Follows s (s.follow e conn) := by
  have hacc : accepted conn.results e = buf := by rw [hresults, accepted_handed hh]
  have hout : conn.socket.cb.sender.outbox = s.cb.sender.outbox.queue buf := by rw [hh.same.sender, hm.outbox]
  have hnext : conn.socket.cb.sender.sendNext = s.cb.sender.sendNext := congrArg Outbox.sendNext hout
  have hpushed : (s.follow e conn).pushed = s.pushed ++ buf := by rw [follow, hacc]
  have hsame : (s.follow e conn).next = s.next := by rw [follow, hnext, SeqNumber.sub_self_toNat, Nat.add_zero]
  have hemits : Emits s.cb conn.socket.cb none := hm.emitted.trans hh.same.rt
  refine .quiet ?_ (fun piece seqNum mac hp => ?_) hemits
  · rw [hpushed, hsame]
    refine h.carries.queue ?_ ?_ (hemits.finSent.trans (Bool.or_false _))
    · change conn.socket.cb.sender.outbox.inFlight = _
      rw [hout]
      rfl
    · change conn.socket.cb.sender.outbox.waiting = _
      rw [hout]
      rfl
  · change conn.socket.sender = _ at hp
    rw [htask] at hp
    obtain ⟨-, before, after, htext, hlen, hlast⟩ := h.probes piece seqNum mac hp
    obtain ⟨byte, rfl⟩ := h.running.inFlight.oneByte piece seqNum mac hp
    refine ⟨?_, before, after ++ buf, ?_, ?_, fun hbuf => by cases hbuf⟩
    · have hwaiting : conn.socket.cb.sender.unsentQueue = _ := congrArg Outbox.waiting hout
      change conn.socket.cb.sender.unsentQueue ≠ []
      rw [hwaiting]
      simp [Outbox.queue]
    · rw [hpushed, htext, List.append_assoc]
    · rw [hsame, ← hlen]
      change _ + (conn.socket.cb.sender.sendNext - seqNum).toNat = _
      rw [hnext]

theorem Streams.turn (h : Streams isn s) (hrun : Running conn) (hok : FrontInOrder s.conn.socket env)
    (ht : SenderTurn s.conn.socket env conn.socket) : Follows s (s.follow .background conn) := by
  have hacc : accepted conn.results .background = [] := rfl
  have hstill : conn.socket.cb = s.cb → (∀ buf seqNum mac, conn.socket.sender = .probing buf seqNum mac →
      s.conn.socket.sender = .probing buf seqNum mac) → Follows s (s.follow .background conn) := by
    intro hcb htask
    obtain ⟨hpushed, hsame, hprobes, -⟩ := h.still hacc (by rw [hcb]) (by rw [hcb]) (by rw [hcb]) htask
    refine .quiet ?_ hprobes (.nothing (congrArg ControlBlock.rt hcb))
    rw [hpushed, hsame]
    change Carries conn.socket.cb _ _
    rw [hcb]
    exact h.carries
  cases ht with
  | idle _ h => exact hstill (by rw [h]; rfl) fun _ _ _ hp => by rwa [h] at hp
  | awaits _ _ h => exact hstill (by rw [h]; rfl) fun _ _ _ hp => by rw [h] at hp; cases hp
  | @probe sendNext byte rest queue mac hread harp hq htask _ hm =>
    change s.cb.sender.unsentQueue = _ at hq
    obtain ⟨hnumber, -⟩ := h.running.inFlight.toNumbered.hasRead hread
    rw [show sendNext = s.cb.sender.sendNext from hnumber] at hm htask
    obtain ⟨hcarries, hplace⟩ := h.sends hrun (h.phase.open (.inr (by rw [hq]; simp))) hm rfl rfl rfl rfl
      (by rw [hacc]; simp [Outbox.send, Sender.outbox, hq]) fun hpiece => by cases hpiece
    refine ⟨hcarries, fun piece seqNum mac' hp => ?_, _, hm.emitted, fun seqNum piece hx => ?_⟩
    · cases htask.symm.trans hp
      have hwaiting : conn.socket.cb.sender.unsentQueue = _ := congrArg Outbox.waiting hm.outbox
      refine ⟨?_, hplace⟩
      change conn.socket.cb.sender.unsentQueue ≠ []
      rw [hwaiting]
      exact List.cons_ne_nil _ _
    · cases hx
      exact hplace
  | @segment sendNext winSz sentData effectiveCwnd maxSize buf queue mac hread harp hsize hq htask hdone hm =>
    obtain ⟨hnumber, -⟩ := h.running.inFlight.toNumbered.hasRead hread
    obtain ⟨-, -, hwin, hcwnd, -⟩ := h.running.inFlight.toWithinHalf.hasRead h.running.inFlight.toCoherent hread
    rw [show sendNext = s.cb.sender.sendNext from hnumber] at hm
    change s.cb.sender.unsentQueue = _ at hq
    obtain ⟨hcarries, hplace⟩ := h.sends hrun (h.phase.open (.inr (by rw [hq]; simp))) hm rfl rfl rfl rfl
      (by
        rw [hacc]
        change s.cb.sender.unsentQueue.flatten ++ [] = _
        rw [hq, List.append_nil, List.flatten_cons]
        simp only [Outbox.send]
        split
        next hshort => rw [List.take_of_length_le hshort]
        next => rw [List.flatten_cons, ← List.append_assoc, List.take_append_drop])
      fun hpiece => by
        obtain ⟨rfl, rfl⟩ := hok.piece (hread.cutsSegment harp).1 hq (by omega) hpiece
        exact ⟨rfl, hm.done.trans (hdone hpiece)⟩
    refine ⟨hcarries, fun piece seqNum mac hp => (by cases htask.symm.trans hp), _, hm.emitted, fun seqNum piece hx => ?_⟩
    cases hx
    exact hplace

theorem Streams.resent {sent : Option (SeqNumber × Buffer)} (h : Streams isn s)
    (he : e = .retransmitTimer ∨ e = .fastRetransmit ∨ e = .ackTimer ∨ e = .persistTimer)
    (hsent : Resent s.conn.socket sent) (hm : Moves s.cb conn.socket.cb sent s.cb.sender.outbox)
    (htask : conn.socket.sender = s.conn.socket.sender) : Follows s (s.follow e conn) := by
  have hacc : accepted conn.results e = [] := by
    rcases he with rfl | rfl | rfl | rfl <;> rfl
  have hout := hm.outbox
  obtain ⟨hpushed, hsame, hprobes, hplaces⟩ := h.still hacc (congrArg Outbox.sendNext hout)
    (congrArg Outbox.waiting hout) hm.done fun _ _ _ hp => htask.symm.trans hp
  have hplaced : ∀ seqNum buf, sent = some (seqNum, buf) → s.Places seqNum buf := by
    intro seqNum buf hx
    cases hsent with
    | nothing => cases hx
    | oldest hq =>
      cases hx
      exact h.oldest hq
    | probe hp =>
      cases hx
      exact (h.probes _ _ _ hp).2
  refine ⟨?_, hprobes, sent, hm.emitted, fun seqNum buf hx => hplaces _ _ (hplaced seqNum buf hx)⟩
  rw [hpushed, hsame]
  refine h.carries.acknowledged ⟨[], congrArg (fun o => o.inFlight.flatten) hout.symm⟩ (congrArg Outbox.waiting hout) ?_
  change conn.socket.cb.finSent = _
  rw [hm.emitted.finSent]
  cases hmark : IsMarker sent with
  | false => exact Bool.or_false _
  | true =>
    have hfin : s.cb.finSent = true := h.phase.resent_marker hsent hmark
    rw [hfin]
    rfl

/-- One step keeps the stream, and what it sends stands where its number says. -/
theorem streams_step {s' : StreamRun} {e : SocketEvent × Env} (h : Streams isn s)
    (hok : s.conn.FitsPacket e ∧ s.conn.SendsFinLast e) (hs : s.step e = some s') :
    Streams isn s' ∧ ∃ sent, Emits s.cb s'.cb sent ∧
      ∀ seqNum buf, sent = some (seqNum, buf) → s'.Places seqNum buf := by
  obtain ⟨conn, hconn, rfl⟩ := Option.map_eq_some_iff.mp hs
  obtain ⟨hstep, hrun⟩ := h.running.step hok.1 hconn
  have hphase := sendPhase_step h.phase h.running.inFlight.toCoherent h.running.inFlight.toWithinHalf hok.2 hstep
  have hnumbered : (s.follow e.1 conn).cb.sender.sendNext = isn + SeqNumber.ofNat (s.follow e.1 conn).next := by
    change conn.socket.cb.sender.sendNext = _
    rw [follow, ← SeqNumber.add_ofNat_add, ← h.numbered, SeqNumber.add_ofNat_sub_toNat]
  have hfollows : Follows s (s.follow e.1 conn) := by
    obtain ⟨event, env⟩ := e
    cases hstep with
    | received he hr htask =>
      dsimp only at he
      subst he
      exact h.received hr htask
    | popped he hcb htask =>
      dsimp only at he
      subst he
      exact h.popped hcb htask
    | refused hsocket _ hresults => exact h.refused hsocket hresults
    | sentNow hh hopen _ hnow hm htask _ hresults => exact h.sentNow hrun hok.2 hh hopen hnow hm htask hresults
    | queued hh _ _ _ hm htask _ hresults => exact h.queued hh hm htask hresults
    | turn he ht =>
      dsimp only at he
      subst he
      exact h.turn hrun hok.2 ht
    | resent he hsent hm htask => exact h.resent he hsent hm htask
  exact ⟨⟨hrun, hphase, hnumbered, hfollows.carries, hfollows.probes⟩, hfollows.emits⟩

theorem Opened.streams (h : Opened cb) : Streams cb.sender.sendNext (.start ⟨cb, .top⟩) where
  running := h.running
  phase := h.sendPhase
  numbered := (SeqNumber.add_ofNat_zero _).symm
  carries := by
    refine ⟨[], ?_, ?_⟩
    · simp [StreamRun.start, StreamRun.cb, SocketRun.start, Sender.outbox, h.unackedQueue, h.unsentQueue]
    · simp [StreamRun.start, StreamRun.cb, SocketRun.start, Sender.outbox, h.unackedQueue, finSent, h.rt]
  probes := fun _ _ _ hp => by cases hp

theorem streams_run {es : List (SocketEvent × Env)} (ho : Opened cb)
    (hp : Admits StreamRun.step (fun s => s.conn.FitsPacket) (.start ⟨cb, .top⟩) es)
    (hk : Admits StreamRun.step (fun s => s.conn.SendsFinLast) (.start ⟨cb, .top⟩) es)
    (hr : run StreamRun.step (.start ⟨cb, .top⟩) es = some s) : Streams cb.sender.sendNext s :=
  run_reaches (fun _ _ _ h hok hs => (streams_step h hok hs).1) ho.streams (hp.and hk) hr

/-- Every segment that a run sends carries the pushed text at the position that its number stands for, and a FIN comes
just after the last byte when the user is done. -/
theorem streamRun_integrity {es : List (SocketEvent × Env)} {e : SocketEvent × Env} {s' : StreamRun} {t : Transmission}
    {buf : Buffer} (ho : Opened cb)
    (hp : Admits StreamRun.step (fun s => s.conn.FitsPacket) (.start ⟨cb, .top⟩) (es ++ [e]))
    (hk : Admits StreamRun.step (fun s => s.conn.SendsFinLast) (.start ⟨cb, .top⟩) (es ++ [e]))
    (hr : run StreamRun.step (.start ⟨cb, .top⟩) es = some s) (hs : s.step e = some s')
    (ht : t ∈ s'.cb.rt.drop s.cb.rt.length) :
    (t.segment.tcpHdr.fin = true → t.segment.data = some [] ∧ s'.cb.userIsDoneSending = true ∧
        s'.position t.segment.tcpHdr.seqNum = s'.pushed.length) ∧
      (t.segment.data = some buf → buf ≠ [] → t.segment.tcpHdr.fin = false) ∧
      (t.segment.data = some buf → (∃ before after, s'.pushed = before ++ buf ++ after ∧
          before.length = s'.position t.segment.tcpHdr.seqNum) ∧
        t.segment.tcpHdr.seqNum = cb.sender.sendNext + SeqNumber.ofNat (s'.position t.segment.tcpHdr.seqNum)) := by
  obtain ⟨hp₁, hp₂⟩ := hp.of_append
  obtain ⟨hk₁, hk₂⟩ := hk.of_append
  have h := streams_run ho hp₁ hk₁ hr
  obtain ⟨h', sent, ⟨out, hrt, htext, hfin⟩, hplaces⟩ := streams_step h ⟨(hp₂ s hr).1, (hk₂ s hr).1⟩ hs
  rw [hrt, List.drop_left] at ht
  have hplace : ∀ piece, t.segment.data = some piece → s'.Places t.segment.tcpHdr.seqNum piece := by
    intro piece hdata
    have hmem : (t.segment.tcpHdr.seqNum, piece) ∈ out.filterMap Transmission.text :=
      List.mem_filterMap.mpr ⟨t, ht, by rw [Transmission.text, hdata]; rfl⟩
    rw [htext, Option.mem_toList] at hmem
    exact hplaces _ _ hmem
  refine ⟨fun hf => ?_, fun hdata hne => ?_, fun hdata => ⟨(hplace buf hdata).position, (hplace buf hdata).numbered h'.numbered⟩⟩
  · have hdata := (hfin t ht).mp hf
    obtain ⟨hlast, hdone⟩ := (hplace [] hdata).fin
    exact ⟨hdata, hdone, hlast⟩
  · rw [← Bool.not_eq_true, hfin t ht, hdata]
    exact fun hx => hne (Option.some.inj hx)

end

theorem streamRun_integrity_sample : ∃ s s' t, run StreamRun.step (.start ⟨smallWindow, .top⟩)
      [(.push [1, 2], linkEnv)] = some s ∧ s.step (.close, linkEnv) = some s' ∧ t ∈ s'.cb.rt.drop s.cb.rt.length ∧
    t.segment.tcpHdr.fin = true ∧ s'.position t.segment.tcpHdr.seqNum = s'.pushed.length := by
  obtain ⟨s, s', t, hr, hs, ht, hfin⟩ : ∃ s s' t, run StreamRun.step (.start ⟨smallWindow, .top⟩)
        [(.push [1, 2], linkEnv)] = some s ∧ s.step (.close, linkEnv) = some s' ∧
      t ∈ s'.cb.rt.drop s.cb.rt.length ∧ t.segment.tcpHdr.fin = true :=
    ⟨_, _, _, rfl, rfl, List.mem_singleton.mpr rfl, rfl⟩
  have hintegrity := @streamRun_integrity _ _ _ _ _ _ [] smallWindow_opened (by decide) (by decide) hr hs ht
  exact ⟨s, s', t, hr, hs, ht, hfin, (hintegrity.1 hfin).2.2⟩

/-- The empty rest of a one-byte buffer that a window probe took goes out as a FIN when the window opens, before the
text that waits behind it. -/
theorem streamRun_integrity_leftover : ∃ s s' t, Opened closedWindow ∧
    run StreamRun.step (.start ⟨closedWindow, .top⟩) [(.push [1], linkEnv), (.push [2], linkEnv), (.close, linkEnv),
      (.background, linkEnv), (.segment { peerHeader ⟨40⟩ false with ackNum := ⟨8⟩ } [], linkEnv)] = some s ∧
    s.step (.background, linkEnv) = some s' ∧ t ∈ s'.cb.rt.drop s.cb.rt.length ∧ t.segment.tcpHdr.fin = true ∧
    s'.position t.segment.tcpHdr.seqNum = 1 ∧ s'.pushed = [1, 2] :=
  ⟨_, _, _, closedWindow_opened, rfl, rfl, List.mem_singleton.mpr rfl, rfl, rfl, rfl⟩

end Capybara
