import Capybara.TcpLink

namespace Capybara

open ControlBlock Runs StreamRun

/-- What the two ends of a connection know of each other. -/
structure Link.Linked (isn : Side → SeqNumber) (l : Link) : Prop where
  streams : ∀ side, Streams (isn side) (l.ends side)
  reads : ∀ side, Reads (isn side.peer) (l.ends side.peer).pushed ((l.ends side.peer).cb.userIsDoneSending = true)
    (l.ends side).conn.delivered (l.ends side).cb
  sent : ∀ side, ∀ t ∈ l.sent side, Sent (isn side) (isn side.peer) (l.ends side) t
  acked : ∀ side, NotAfter (isn side) (l.ends side).cb.sender.sendUnacked (l.ends side.peer).cb.receiver.receiveNext

@[simp] theorem Side.peer_peer (side : Side) : side.peer.peer = side := by
  cases side <;> rfl

theorem Side.peer_ne (side : Side) : side.peer ≠ side := by
  cases side <;> exact fun h => nomatch h

theorem Side.eq_or_peer (side side' : Side) : side' = side ∨ side' = side.peer := by
  cases side <;> cases side' <;> decide

namespace Link

@[simp] theorem set_ends (l : Link) (side : Side) (s : StreamRun) (past : List Transmission) :
    (l.set side s past).ends side = s := if_pos rfl

@[simp] theorem set_peer (l : Link) (side : Side) (s : StreamRun) (past : List Transmission) :
    (l.set side s past).ends side.peer = l.ends side.peer :=
  if_neg side.peer_ne

theorem sent_set (l : Link) (side : Side) (s : StreamRun) (past : List Transmission) :
    (l.set side s past).sent side = past ++ s.cb.rt := by
  rw [sent, set_ends]
  exact congrArg (· ++ s.cb.rt) (if_pos rfl)

theorem sent_set_peer (l : Link) (side : Side) (s : StreamRun) (past : List Transmission) :
    (l.set side s past).sent side.peer = l.sent side.peer := by
  rw [sent, sent, set_peer]
  exact congrArg (· ++ _) (if_neg side.peer_ne)

section

variable {isn : Side → SeqNumber} {l l' : Link} {e : LinkEvent} {blocks : Side → ControlBlock} {es : List LinkEvent}

theorem linked_set {side : Side} {s' : StreamRun} {past : List Transmission} (h : Linked isn l)
    (hs : EndStep (isn side) (isn side.peer) (l.ends side.peer) (l.ends side) s')
    (hpast : ∀ t ∈ past, t ∈ l.sent side) : Linked isn (l.set side s' past) := by
  have hkept : ∀ t ∈ l.sent side, Sent (isn side) (isn side.peer) s' t := by
    intro t ht
    obtain ⟨hg, hack⟩ := h.sent side t ht
    exact ⟨hg.extend hs.pushes hs.done, hack.trans hs.advances⟩
  refine ⟨fun x => ?_, fun x => ?_, fun x => ?_, fun x => ?_⟩
  · rcases side.eq_or_peer x with rfl | rfl
    · rw [set_ends]
      exact hs.streams
    · rw [set_peer]
      exact h.streams _
  · rcases side.eq_or_peer x with rfl | rfl
    · rw [set_ends, set_peer]
      exact hs.reads
    · have hold := h.reads side.peer
      rw [Side.peer_peer] at hold ⊢
      rw [set_ends, set_peer]
      exact hold.extend hs.pushes hs.done
  · rcases side.eq_or_peer x with rfl | rfl
    · rw [set_ends, sent_set]
      intro t ht
      rcases List.mem_append.mp ht with hold | hnew
      · exact hkept t (hpast t hold)
      · rcases hs.sent t hnew with hold | hnew
        · exact hkept t (List.mem_append_right _ hold)
        · exact hnew
    · rw [set_peer, sent_set_peer]
      exact h.sent side.peer
  · rcases side.eq_or_peer x with rfl | rfl
    · rw [set_ends, set_peer]
      rcases hs.acked with hsame | hnew
      · rw [hsame]
        exact h.acked x
      · exact hnew
    · have hold := h.acked side.peer
      rw [Side.peer_peer] at hold ⊢
      rw [set_ends, set_peer]
      exact hold.trans hs.advances

/-- One end makes a step, and what was pushed at it grows. -/
theorem step_set (h : l.step e = some l') : ∃ s' past, l' = l.set e.side s' past ∧
    (l.ends e.side).pushed <+: s'.pushed := by
  cases e with
  | migrate side appState local_ ackDelayTimeout =>
    obtain ⟨socket, -, h⟩ := Option.bind_eq_some_iff.mp h
    exact ⟨_, _, (Option.some.inj h).symm, List.prefix_refl _⟩
  | call side event env =>
    obtain ⟨e', -, h⟩ := Option.bind_eq_some_iff.mp h
    obtain ⟨s', hs, h⟩ := Option.bind_eq_some_iff.mp h
    obtain ⟨conn, -, rfl⟩ := Option.map_eq_some_iff.mp hs
    exact ⟨_, _, (Option.some.inj h).symm, List.prefix_append _ _⟩
  | deliver side index env =>
    obtain ⟨e', -, h⟩ := Option.bind_eq_some_iff.mp h
    obtain ⟨s', hs, h⟩ := Option.bind_eq_some_iff.mp h
    obtain ⟨conn, -, rfl⟩ := Option.map_eq_some_iff.mp hs
    exact ⟨_, _, (Option.some.inj h).symm, List.prefix_append _ _⟩

theorem step_short (h : l.step e = some l') (hshort : l'.Short) : l.Short := by
  obtain ⟨s', past, rfl, hpushes⟩ := step_set h
  intro x
  have hx := hshort x
  rcases e.side.eq_or_peer x with rfl | rfl
  · have hle := hpushes.length_le
    rw [set_ends] at hx
    omega
  · rw [set_peer] at hx
    exact hx

/-- A step of either end keeps what the ends know of each other. -/
theorem linked_step (h : Linked isn l) (hok : l.Sound e) (hstep : l.step e = some l') (hshort : l'.Short) :
    Linked isn l' := by
  have hbefore := step_short hstep hshort
  cases e with
  | migrate side appState local_ ackDelayTimeout =>
    obtain ⟨socket, hmigrate, hstep⟩ := Option.bind_eq_some_iff.mp hstep
    cases Option.some.inj hstep
    exact linked_set h (migrate_step (h.streams _) (h.reads _) hok hmigrate) fun t ht => ht
  | call side event env =>
    obtain ⟨e', he, hstep⟩ := Option.bind_eq_some_iff.mp hstep
    obtain ⟨s', hs, hstep⟩ := Option.bind_eq_some_iff.mp hstep
    cases Option.some.inj hstep
    refine linked_set h (end_step (h.streams _) (h.reads _) (hbefore _) (hok e' he) (fun header data hseg => ?_) hs)
      fun t ht => List.mem_append_left _ ht
    cases event <;> cases he <;> cases hseg
  | deliver side index env =>
    obtain ⟨e', he, hstep⟩ := Option.bind_eq_some_iff.mp hstep
    obtain ⟨s', hs, hstep⟩ := Option.bind_eq_some_iff.mp hstep
    cases Option.some.inj hstep
    refine linked_set h (end_step (h.streams _) (h.reads _) (hbefore _) (hok e' he) (fun header data hseg => ?_) hs)
      fun t ht => List.mem_append_left _ ht
    obtain ⟨t, ht, rfl⟩ := Option.map_eq_some_iff.mp he
    cases hseg
    have hsent := h.sent side.peer t (List.mem_of_getElem? ht)
    rw [Side.peer_peer] at hsent
    exact .inr ⟨hsent.genuine, hsent.acknowledges⟩

theorem linked_start (h : Connected blocks) : Linked (fun side => (blocks side).sender.sendNext) (start blocks) where
  streams side := (h.opened side).streams
  reads side := by
    have ho := h.opened side
    have hnone : ((start blocks).ends side).conn.delivered = [] := by
      change [] ++ (blocks side).receiver.recvQueue.flatten = []
      rw [ho.recvQueue]
      rfl
    refine ⟨fun x hx => ?_, fun number hn => ?_, .reading ?_ ?_ (.inl ?_)⟩
    · cases ho.outOfOrder.symm ▸ (show x ∈ (blocks side).outOfOrder from hx)
    · cases ho.outOfOrderFin.symm.trans hn
    · rw [hnone]
      exact List.nil_prefix
    · rw [hnone]
      exact (h.receiveNext side).trans (SeqNumber.add_ofNat_zero _).symm
    · change canReceiveData (blocks side).state = true
      rw [ho.state]
      rfl
  sent side t ht := by
    change t ∈ [] ++ (blocks side).rt at ht
    rw [(h.opened side).rt] at ht
    cases ht
  acked side := by
    change NotAfter _ (blocks side).sender.sendUnacked _
    rw [NotAfter, ← (h.opened side).sendNext, SeqNumber.sub_self_toNat]
    exact Nat.zero_le _

theorem linked_run (h : Connected blocks) (hok : Admits step Sound (start blocks) es)
    (hrun : run step (start blocks) es = some l) (hshort : l.Short) :
    Linked (fun side => (blocks side).sender.sendNext) l := by
  have hkeeps : l.Short → Linked (fun side => (blocks side).sender.sendNext) l :=
    @run_reaches Link LinkEvent step (fun l => l.Short → Linked (fun side => (blocks side).sender.sendNext) l) Sound
      (fun l e l' hi hok hs hshort => linked_step (hi (step_short hs hshort)) hok hs hshort) _ _ _
      (fun _ => linked_start h) hok hrun
  exact hkeeps hshort

/-- A side has received a prefix of what was pushed at the other, and all of it once it has taken the FIN. -/
theorem linked_delivers (h : Linked isn l) (side : Side) :
    (l.ends side).conn.delivered <+: (l.ends side.peer).pushed ∧
      ((l.ends side).cb.state ∈ [State.closeWait, .closing, .lastAck, .timeWait] →
        (l.ends side).conn.delivered = (l.ends side.peer).pushed ∧
          (l.ends side.peer).cb.userIsDoneSending = true) := by
  have hreads := (h.reads side).readTo
  refine ⟨hreads.isPrefix, fun hstate => ?_⟩
  cases hreads with
  | reading _ _ hopen => exact absurd hopen (by revert hstate; cases (l.ends side).cb.state <;> decide)
  | finished hall hcomplete => exact ⟨hall, hcomplete⟩

/-- What a side takes for acknowledged the other has received, and all of it once the FIN is acknowledged. -/
theorem linked_acknowledges (h : Linked isn l) (hshort : l.Short) (side : Side) :
    ∃ acked : Buffer, (l.ends side).pushed = acked ++ (l.ends side).cb.sender.outbox.inFlight.flatten ++
        (l.ends side).cb.sender.outbox.waiting.flatten ∧
      acked <+: (l.ends side.peer).conn.delivered ∧
      ((l.ends side).cb.finAcked = true → (l.ends side.peer).conn.delivered = (l.ends side).pushed) := by
  obtain ⟨acked, hpushed, hnumber, hfinished⟩ := (h.streams side).acked
  have hread := (h.reads side.peer).readTo
  have hknown := h.acked side
  rw [Side.peer_peer] at hread
  have hlen := congrArg List.length hpushed
  have hfin := Bool.toNat_le (l.ends side).cb.finAcked
  have hshort := hshort side
  have hpre : acked <+: (l.ends side).pushed := by
    rw [hpushed, List.append_assoc]
    exact List.prefix_append _ _
  simp only [List.length_append] at hlen
  rw [NotAfter, hnumber, SeqNumber.add_ofNat_sub (by omega)] at hknown
  refine ⟨acked, hpushed, ?_⟩
  rcases hread.position hshort with hread' | ⟨-, hall, -⟩
  · rw [hread'] at hknown
    refine ⟨List.prefix_of_prefix_length_le hpre hread.isPrefix (by omega), fun hacked => ?_⟩
    have hle := hread.isPrefix.length_le
    rw [hacked, Bool.toNat_true, hfinished hacked] at hknown
    omega
  · rw [hall]
    exact ⟨hpre, fun _ => rfl⟩

/-- Whatever the network does to the segments of two ends and however often an end moves to another server, each end has
received a prefix of what was pushed at the other, and an end that has taken the FIN has received all of it. -/
theorem run_delivers (h : Connected blocks) (hok : Admits step Sound (start blocks) es)
    (hrun : run step (start blocks) es = some l) (hshort : l.Short) (side : Side) :
    (l.ends side).conn.delivered <+: (l.ends side.peer).pushed ∧
      ((l.ends side).cb.state ∈ [State.closeWait, .closing, .lastAck, .timeWait] →
        (l.ends side).conn.delivered = (l.ends side.peer).pushed ∧
          (l.ends side.peer).cb.userIsDoneSending = true) :=
  linked_delivers (linked_run h hok hrun hshort) side

/-- Two ends whose client numbers its stream across the end of the sequence space. -/
def sampleEnds : Side → ControlBlock
  | .client => .new ⟨⟨10, 0, 1, 7⟩, 50000⟩ ⟨⟨10, 0, 1, 8⟩, 10000⟩ ⟨40⟩ 0 65535 0 ⟨4294967294⟩ 65535 0 1460
  | .server => .new ⟨⟨10, 0, 1, 8⟩, 10000⟩ ⟨⟨10, 0, 1, 7⟩, 50000⟩ ⟨4294967294⟩ 0 65535 0 ⟨40⟩ 65535 0 1460

theorem sampleEnds_connected : Connected sampleEnds where
  opened side := by
    cases side
    · exact opened_new (by decide) (by decide) (by decide) (by decide) (by decide)
    · exact opened_new (by decide) (by decide) (by decide) (by decide) (by decide)
  receiveNext side := by cases side <;> rfl

/-- The second segment comes first, and the server moves before the first one comes, twice; of the server's ACKs the
last one comes first. -/
def shuffled : List LinkEvent :=
  [.call .client (.push [1, 2]) linkEnv, .call .client (.push [3]) linkEnv, .call .client .close linkEnv,
    .deliver .server 1 linkEnv, .migrate .server .none ⟨⟨10, 0, 1, 9⟩, 10000⟩ 0, .deliver .server 0 linkEnv,
    .deliver .server 0 linkEnv, .deliver .server 2 linkEnv, .deliver .client 2 linkEnv, .deliver .client 0 linkEnv]

theorem shuffled_sound : Admits step Sound (start sampleEnds) shuffled := by decide +kernel

theorem run_delivers_shuffled : ∃ l, run step (start sampleEnds) shuffled = some l ∧
    (l.ends .server).cb.state = .closeWait ∧ (l.ends .server).conn.delivered = (l.ends .client).pushed := by
  have hruns : (run step (start sampleEnds) shuffled).any
      (fun l => decide ((l.ends .server).cb.state = .closeWait ∧ l.Short)) = true := by decide +kernel
  obtain ⟨l, hrun, hl⟩ := (Option.any_eq_true _ _).mp hruns
  obtain ⟨hstate, hshort⟩ := of_decide_eq_true hl
  have hfinished := (run_delivers sampleEnds_connected shuffled_sound hrun hshort .server).2
  exact ⟨l, hrun, hstate, (hfinished (by rw [hstate]; decide)).1⟩

/-- What an end takes for acknowledged the other has received, and all of it once the FIN is acknowledged. -/
theorem run_acknowledges (h : Connected blocks) (hok : Admits step Sound (start blocks) es)
    (hrun : run step (start blocks) es = some l) (hshort : l.Short) (side : Side) :
    ∃ acked : Buffer, (l.ends side).pushed = acked ++ (l.ends side).cb.sender.outbox.inFlight.flatten ++
        (l.ends side).cb.sender.outbox.waiting.flatten ∧
      acked <+: (l.ends side.peer).conn.delivered ∧
      ((l.ends side).cb.finAcked = true → (l.ends side.peer).conn.delivered = (l.ends side).pushed) :=
  linked_acknowledges (linked_run h hok hrun hshort) hshort side

theorem run_acknowledges_shuffled : ∃ l, run step (start sampleEnds) shuffled = some l ∧
    (l.ends .client).cb.state = .finWait2 ∧ (l.ends .server).conn.delivered = (l.ends .client).pushed := by
  have hruns : (run step (start sampleEnds) shuffled).any (fun l =>
      decide ((l.ends .client).cb.state = .finWait2 ∧ (l.ends .client).cb.finAcked = true ∧ l.Short)) = true := by
    decide +kernel
  obtain ⟨l, hrun, hl⟩ := (Option.any_eq_true _ _).mp hruns
  obtain ⟨hstate, hacked, hshort⟩ := of_decide_eq_true hl
  obtain ⟨acked, -, -, hall⟩ := run_acknowledges sampleEnds_connected shuffled_sound hrun hshort .client
  exact ⟨l, hrun, hstate, hall hacked⟩

end

end Link

end Capybara
