import Capybara.InFlight

namespace Capybara

open ControlBlock

/-- Whether a segment with a FIN was sent. -/
def ControlBlock.finSent (cb : ControlBlock) : Bool := cb.rt.any fun t => t.segment.tcpHdr.fin

/-- A segment that goes out is the end-of-send marker. -/
def IsMarker (sent : Option (SeqNumber × Buffer)) : Bool := sent.any fun x => x.2.isEmpty

/-- A segment is cut off an end-of-send marker only if that is the last buffer that waits, and segments can carry text. -/
def FrontInOrder (s : EstablishedSocket) (env : Env) : Prop :=
  ∀ buf, s.cb.sender.unsentQueue.head? = some buf → s.cutsSegment env = true →
    (buf = [] → s.cb.sender.unsentQueue.length = 1) ∧ (buf ≠ [] → s.cb.sender.mss ≠ 0)

instance (s : EstablishedSocket) (env : Env) : Decidable (FrontInOrder s env) :=
  inferInstanceAs (Decidable (∀ buf, s.cb.sender.unsentQueue.head? = some buf → _))

/-- No push sends an empty buffer at once, and the background sender sends the end-of-send marker last. -/
def SocketRun.SendsFinLast (r : SocketRun) (e : SocketEvent × Env) : Prop :=
  match e.1 with
  | .push buf => buf = [] → r.socket.cb.userIsDoneSending = true ∨ ¬SendsNow r.socket.cb [] e.2
  | .background => FrontInOrder r.socket e.2
  | _ => True

instance : (r : SocketRun) → (e : SocketEvent × Env) → Decidable (r.SendsFinLast e)
  | r, (.push buf, env) =>
    inferInstanceAs (Decidable (buf = [] → r.socket.cb.userIsDoneSending = true ∨ ¬SendsNow r.socket.cb [] env))
  | r, (.background, env) => inferInstanceAs (Decidable (FrontInOrder r.socket env))
  | _, (.pop, _) | _, (.segment _ _, _) | _, (.close, _) | _, (.retransmitTimer, _) | _, (.fastRetransmit, _)
  | _, (.ackTimer, _) | _, (.persistTimer, _) => inferInstanceAs (Decidable True)

/-- Buffers of text, with the end-of-send marker at the end. -/
def EndsWithMarker (bufs : List Buffer) : Prop := ∃ front, bufs = front ++ [[]] ∧ [] ∉ front

/-- Text goes out until the FIN does, and nothing after it. -/
inductive SendPhase (cb : ControlBlock) : Prop
  | sending (hfin : cb.finSent = false) (htext : [] ∉ cb.sender.outbox.inFlight)
  | finished (hfin : cb.finSent = true) (hdone : cb.userIsDoneSending = true) (hwaiting : cb.sender.outbox.waiting = [])
      (hlast : cb.sender.outbox.inFlight = [] ∨ EndsWithMarker cb.sender.outbox.inFlight)

section

variable {queue queue' : List UnackedSegment} {n : Nat} {cb cb' cb₁ : ControlBlock} {sent : Option (SeqNumber × Buffer)}
  {o : Outbox} {r r' : SocketRun} {header : TcpHeader} {data : Buffer}

/-- Removing acknowledged data takes bytes off the front. -/
theorem removeAcknowledgedData_flatten (h : Sender.removeAcknowledgedData queue n = some queue') :
    ∃ taken, (queue.map UnackedSegment.bytes).flatten = taken ++ (queue'.map UnackedSegment.bytes).flatten := by
  fun_induction Sender.removeAcknowledgedData queue n with
  | case1 =>
    cases h
    exact ⟨[], rfl⟩
  | case2 => cases h
  | case3 segment queue n hlong =>
    simp only [adjust_of_le (show n + 1 ≤ segment.bytes.length by omega), Option.bind_eq_bind, Option.bind_some,
      Option.some.injEq] at h
    subst h
    refine ⟨segment.bytes.take (n + 1), ?_⟩
    simp only [List.map_cons, List.flatten_cons, ← List.append_assoc, List.take_append_drop]
  | case4 segment queue n =>
    cases h
    exact ⟨segment.bytes, rfl⟩
  | case5 => cases h
  | case6 segment queue n hlong hne ih =>
    obtain ⟨taken, htaken⟩ := ih h
    exact ⟨segment.bytes ++ taken, by rw [List.map_cons, List.flatten_cons, htaken, List.append_assoc]⟩

theorem removeAcknowledgedData_text (h : Sender.removeAcknowledgedData queue n = some queue')
    (ht : [] ∉ queue.map UnackedSegment.bytes) : [] ∉ queue'.map UnackedSegment.bytes := by
  fun_induction Sender.removeAcknowledgedData queue n with
  | case1 =>
    cases h
    exact ht
  | case2 => cases h
  | case3 segment queue n hlong =>
    simp only [adjust_of_le (show n + 1 ≤ segment.bytes.length by omega), Option.bind_eq_bind, Option.bind_some,
      Option.some.injEq] at h
    subst h
    rw [List.map_cons, List.mem_cons, not_or] at ht ⊢
    refine ⟨fun he => ?_, ht.2⟩
    have hlen := congrArg List.length he
    rw [List.length_nil, List.length_drop] at hlen
    omega
  | case4 segment queue n =>
    cases h
    exact fun hmem => ht (List.mem_cons_of_mem _ hmem)
  | case5 => cases h
  | case6 segment queue n hlong hne ih => exact ih h fun hmem => ht (List.mem_cons_of_mem _ hmem)

/-- The end-of-send marker stays at the end, or all is acknowledged. -/
theorem removeAcknowledgedData_marker (h : Sender.removeAcknowledgedData queue n = some queue')
    (ht : EndsWithMarker (queue.map UnackedSegment.bytes)) :
    queue'.map UnackedSegment.bytes = [] ∨ EndsWithMarker (queue'.map UnackedSegment.bytes) := by
  fun_induction Sender.removeAcknowledgedData queue n with
  | case1 =>
    cases h
    exact .inr ht
  | case2 => cases h
  | case3 segment queue n hlong =>
    simp only [adjust_of_le (show n + 1 ≤ segment.bytes.length by omega), Option.bind_eq_bind, Option.bind_some,
      Option.some.injEq] at h
    subst h
    obtain ⟨front, hfront, htext⟩ := ht
    cases front with
    | nil =>
      have hempty : segment.bytes = [] := (List.cons.inj hfront).1
      simp [hempty] at hlong
    | cons buf front =>
      obtain ⟨hbuf, hrest⟩ := List.cons.inj hfront
      refine .inr ⟨segment.bytes.drop (n + 1) :: front, congrArg _ hrest, ?_⟩
      rw [List.mem_cons, not_or] at htext ⊢
      refine ⟨fun he => ?_, htext.2⟩
      have hlen := congrArg List.length he
      rw [List.length_nil, List.length_drop] at hlen
      omega
  | case4 segment queue n hlong hempty hlast =>
    cases h
    obtain ⟨front, hfront, htext⟩ := ht
    cases front with
    | nil => exact .inl (List.cons.inj hfront).2
    | cons buf front =>
      have hbuf := (List.cons.inj hfront).1
      rw [List.eq_nil_of_length_eq_zero hempty] at hbuf
      exact absurd (by rw [hbuf]; exact List.mem_cons_self) htext
  | case5 => cases h
  | case6 segment queue n hlong hne ih =>
    apply ih h
    obtain ⟨front, hfront, htext⟩ := ht
    cases front with
    | nil =>
      have hempty : segment.bytes = [] := (List.cons.inj hfront).1
      simp [hempty] at hne
    | cons buf front =>
      exact ⟨front, (List.cons.inj hfront).2, fun hmem => htext (List.mem_cons_of_mem _ hmem)⟩

/-- A FIN was sent before or is sent now. -/
theorem Emits.finSent (h : Emits cb cb' sent) : cb'.finSent = (cb.finSent || IsMarker sent) := by
  obtain ⟨out, hrt, htext, hfin⟩ := h
  rw [ControlBlock.finSent, ControlBlock.finSent, hrt, List.any_append]
  congr 1
  rw [Bool.eq_iff_iff, List.any_eq_true]
  constructor
  · rintro ⟨t, ht, hf⟩
    have hdata := (hfin t ht).mp hf
    have hmem : (t.segment.tcpHdr.seqNum, []) ∈ out.filterMap Transmission.text :=
      List.mem_filterMap.mpr ⟨t, ht, by rw [Transmission.text, hdata]; rfl⟩
    rw [htext, Option.mem_toList] at hmem
    rw [hmem]
    rfl
  · intro hm
    obtain ⟨x, rfl, hx⟩ := (Option.any_eq_true _ _).mp hm
    have hmem : x ∈ out.filterMap Transmission.text := by rw [htext]; exact List.mem_cons_self
    obtain ⟨t, ht, hx'⟩ := List.mem_filterMap.mp hmem
    refine ⟨t, ht, (hfin t ht).mpr ?_⟩
    obtain ⟨buf, hdata, rfl⟩ := Option.map_eq_some_iff.mp hx'
    rw [hdata, show buf = [] from List.isEmpty_iff.mp hx]

theorem SendPhase.received (h : SendPhase cb) (hr : Received cb header data cb') : SendPhase cb' := by
  obtain ⟨-, hwaiting, -⟩ := hr.ahead
  cases h with
  | sending hfin htext =>
    refine .sending ((hr.emits.finSent.trans (Bool.or_false _)).trans hfin) ?_
    rcases hr.acknowledges with hsame | ⟨n, hremove⟩
    · rw [Sender.outbox, hsame]
      exact htext
    · exact removeAcknowledgedData_text hremove htext
  | finished hfin hdone hwait hlast =>
    refine .finished ((hr.emits.finSent.trans (Bool.or_false _)).trans hfin) (hr.done.trans hdone) (hwaiting.trans hwait) ?_
    rcases hr.acknowledges with hsame | ⟨n, hremove⟩
    · rw [Sender.outbox, hsame]
      exact hlast
    · rcases hlast with hempty | hmarker
      · have hnil : cb.sender.unackedQueue = [] := List.map_eq_nil_iff.mp hempty
        rw [hnil] at hremove
        cases n with
        | zero => exact .inl (congrArg (List.map UnackedSegment.bytes) (Option.some.inj hremove).symm)
        | succ n => cases hremove
      · exact removeAcknowledgedData_marker hremove hmarker

/-- Nothing new goes out. -/
theorem SendPhase.keep (h : SendPhase cb) (hm : Moves cb cb' sent o) (hsent : IsMarker sent = true → cb.finSent = true)
    (ho : o.inFlight = cb.sender.outbox.inFlight) (hw : cb.finSent = true → o.waiting = cb.sender.outbox.waiting) :
    SendPhase cb' := by
  have hf := hm.emitted.finSent
  cases h with
  | sending hfin htext =>
    refine .sending ?_ (by rw [hm.outbox, ho]; exact htext)
    rw [hf, hfin, Bool.false_or, ← Bool.not_eq_true]
    exact fun hmark => by rw [hsent hmark] at hfin; cases hfin
  | finished hfin hdone hwait hlast =>
    refine .finished (by rw [hf, hfin]; rfl) (hm.done.trans hdone) ?_ (by rw [hm.outbox, ho]; exact hlast)
    rw [hm.outbox, hw hfin]
    exact hwait

/-- Something goes out that was not sent before: text, or the end-of-send marker as the last thing. -/
theorem SendPhase.send {seqNum : SeqNumber} {piece : Buffer} (h : SendPhase cb) (hopen : cb.finSent = false)
    (hm : Moves cb cb₁ (some (seqNum, piece)) o) (ho : o.inFlight = cb.sender.outbox.inFlight ++ [piece])
    (hsender : cb'.sender = cb₁.sender) (hrt : cb'.rt = cb₁.rt)
    (hlast : piece = [] → o.waiting = [] ∧ cb'.userIsDoneSending = true) : SendPhase cb' := by
  have hf := hm.emitted.finSent
  rw [hopen, Bool.false_or] at hf
  have hfin : cb'.finSent = IsMarker (some (seqNum, piece)) := by rw [← hf, finSent, finSent, hrt]
  have hout : cb'.sender.outbox = o := by rw [hsender, hm.outbox]
  cases h with
  | finished hfin' => rw [hopen] at hfin'; cases hfin'
  | sending _ htext =>
    by_cases hpiece : piece = []
    · obtain ⟨hwait, hdone⟩ := hlast hpiece
      subst hpiece
      refine .finished hfin hdone (by rw [hout, hwait]) (.inr ⟨_, by rw [hout, ho], htext⟩)
    · refine .sending ?_ ?_
      · rw [hfin]
        exact List.isEmpty_eq_false_iff.mpr hpiece
      · rw [hout, ho]
        simpa using ⟨htext, hpiece⟩

/-- While anything waits or the user may still send, the FIN was not sent. -/
theorem SendPhase.open (h : SendPhase cb) (hw : cb.userIsDoneSending = false ∨ cb.sender.unsentQueue ≠ []) :
    cb.finSent = false := by
  cases h with
  | sending hfin => exact hfin
  | finished _ hdone hwait =>
    rcases hw with hopen | hne
    · rw [hopen] at hdone
      cases hdone
    · exact absurd hwait hne

/-- A piece of a segment that the background sender cuts is empty only for an end-of-send marker. -/
theorem FrontInOrder.piece {s : EstablishedSocket} {env : Env} {buf : Buffer} {bufs : List Buffer} {maxSize : Nat}
    (h : FrontInOrder s env) (hcuts : s.cutsSegment env = true) (hq : s.cb.sender.unsentQueue = buf :: bufs)
    (hmss : s.cb.sender.mss ≠ 0 → 0 < maxSize) (hpiece : buf.take maxSize = []) : buf = [] ∧ bufs = [] := by
  obtain ⟨hempty, htext⟩ := h buf (by rw [hq]; rfl) hcuts
  have hbuf : buf = [] := by
    by_contra hne
    have hpos := hmss (htext hne)
    have hlen := congrArg List.length hpiece
    have hlen' := List.length_pos_iff.mpr hne
    rw [List.length_take, List.length_nil] at hlen
    omega
  have hone := hempty hbuf
  rw [hq, List.length_cons] at hone
  exact ⟨hbuf, List.eq_nil_of_length_eq_zero (by omega)⟩

/-- A FIN goes out again only after it was sent. -/
theorem SendPhase.resent_marker {s : EstablishedSocket} (h : SendPhase s.cb) (hsent : Resent s sent)
    (hmark : IsMarker sent = true) : s.cb.finSent = true := by
  cases hsent with
  | nothing => cases hmark
  | @oldest buf rest hq =>
    have hbuf : buf = [] := List.isEmpty_iff.mp hmark
    cases h with
    | sending _ htext =>
      rw [hq, hbuf] at htext
      exact absurd List.mem_cons_self htext
    | finished hfin => exact hfin
  | probe => cases hmark

theorem sendPhase_step {e : SocketEvent} {env : Env} (h : SendPhase r.socket.cb) (hc : Coherent r.socket)
    (hb : WithinHalf r.socket) (hok : r.SendsFinLast (e, env)) (hs : SocketStep r e env r') : SendPhase r'.socket.cb := by
  cases hs with
  | received _ hr => exact h.received hr
  | popped _ hcb =>
    obtain ⟨hrt, -, hdone⟩ := pollRecv_outbound r.socket.cb
    have hsender := pollRecv_sender r.socket.cb
    rw [← hcb] at hrt hdone hsender
    cases h with
    | sending hfin htext => exact .sending (by rw [finSent, hrt]; exact hfin) (by rw [hsender]; exact htext)
    | finished hfin hdone' hwait hlast =>
      exact .finished (by rw [finSent, hrt]; exact hfin) (hdone.trans hdone') (by rw [hsender]; exact hwait)
        (by rw [hsender]; exact hlast)
  | refused hsocket => rwa [hsocket]
  | @sentNow buf cb₁ hh hopen _ hnow hm =>
    have hrt : r'.socket.cb.rt = cb₁.rt := hh.same.rt
    refine h.send (h.open (.inl hopen)) hm rfl hh.same.sender hrt fun hbuf => ⟨hnow.1, ?_⟩
    subst hbuf
    rcases hh.event with ⟨rfl, -⟩ | ⟨-, -, hdone⟩
    · rcases hok rfl with hdone | hnot
      · rw [hopen] at hdone
        cases hdone
      · exact absurd hnow hnot
    · exact hdone
  | @queued buf cb₁ hh hopen _ _ hm =>
    have hfin := h.open (.inl hopen)
    have hkept : SendPhase cb₁ :=
      h.keep hm (fun hmark => by cases hmark) rfl fun hf => by rw [hfin] at hf; cases hf
    cases hkept with
    | sending hfin₁ htext =>
      exact .sending (by rw [finSent, hh.same.rt]; exact hfin₁) (by rw [hh.same.sender]; exact htext)
    | finished hfin₁ =>
      rw [hm.emitted.finSent, hfin] at hfin₁
      cases hfin₁
  | turn he ht =>
    subst he
    cases ht with
    | idle _ hsame => rwa [hsame]
    | awaits _ _ hsame => rwa [hsame]
    | probe _ _ hq _ _ hm =>
      exact h.send (h.open (.inr (by rw [hq]; simp))) hm rfl rfl rfl fun he => by cases he
    | @segment sendNext winSz sentData effectiveCwnd maxSize buf queue mac hread harp hsize hq _ hdone hm =>
      obtain ⟨-, -, hwin, hcwnd, -⟩ := hb.hasRead hc hread
      refine h.send (h.open (.inr (by rw [hq]; simp))) hm rfl rfl rfl fun hpiece => ⟨?_, ?_⟩
      · obtain ⟨rfl, rfl⟩ := FrontInOrder.piece hok (hread.cutsSegment harp).1 hq (by omega) hpiece
        rfl
      · rw [hm.done]
        exact hdone hpiece
  | resent _ hsent hm =>
    exact h.keep hm (h.resent_marker hsent) rfl fun _ => rfl

end

theorem Opened.sendPhase {cb : ControlBlock} (h : Opened cb) : SendPhase cb :=
  .sending (by rw [finSent]; exact congrArg (List.any · _) h.rt) (by simp [Sender.outbox, h.unackedQueue])

end Capybara
