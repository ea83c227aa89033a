import Capybara.Handshakes
import Capybara.Session
import Capybara.TcpLinkRuns

namespace Capybara

open ControlBlock Runs

namespace Session

/-- The connection with a block of a finished handshake at each end that is not open yet. -/
def link (s : Session) (blocks : Side → ControlBlock) : Link where
  ends side := (s.ends side).getD (.start ⟨blocks side, .top⟩)
  past := s.past

/-- A header of the handshake: a SYN, after which the numbers of its side begin at `isn`, or the ACK for one. -/
structure Says (isn peerIsn : SeqNumber) (header : TcpHeader) : Prop where
  noFin : header.fin = false
  syn : header.syn = true → header.seqNum + SeqNumber.ofNat 1 = isn
  ack : header.syn = false → header.ackNum = peerIsn

/-- The two sides agree on the numbers from which they count. -/
structure Numbered (isn : Side → SeqNumber) (s : Session) : Prop where
  opener : ∀ opener, s.opener = some opener → opener.localIsn + SeqNumber.ofNat 1 = isn .client ∧
    ∀ cb, opener.result = some (.ok cb) → Opening (isn .client) (isn .server) cb
  listener : s.listener.Agrees s.client (isn .server) (isn .client)
  scale : s.listener.tcpConfig.windowScale.toNat ≤ 14
  handshakes : ∀ side, ∀ header ∈ s.handshakes side, Says (isn side) (isn side.peer) header
  linked : ∀ blocks, (∀ side, Opening (isn side) (isn side.peer) (blocks side)) → Link.Linked isn (s.link blocks)

/-- Nothing of the client has reached the server. -/
def Unheard (s : Session) : Prop := s.ends .server = none ∧ s.listener.Unknown s.client

def numbers (client server : SeqNumber) : Side → SeqNumber
  | .client => client
  | .server => server

/-- Numbers that the sides agree on; until the server has heard of the client it may choose any. -/
def Consistent (first : SeqNumber) (s : Session) : Prop :=
  (∃ last, Numbered (numbers first last) s) ∧ (s.Unheard → ∀ last, Numbered (numbers first last) s)

/-- A connection attempt and a listener that have not heard of each other. -/
structure Fresh (opener : ActiveOpenSocket) (listener : PassiveSocket) : Prop where
  result : opener.result = none
  unknown : listener.Unknown opener.local_
  unready : ∀ cb, .ok cb ∈ listener.ready.ready → cb.remote ≠ opener.local_
  scale : listener.tcpConfig.windowScale.toNat ≤ 14

/-- The client's connection is open or about to be. -/
def Attained (s : Session) : Prop :=
  (s.ends .client).isSome = true ∨ ∃ opener cb, s.opener = some opener ∧ opener.result = some (.ok cb)

/-- What the sides have of the handshake fits together. -/
structure Agreed (isn : Side → SeqNumber) (s : Session) : Prop where
  attempt : ∀ opener cb, s.opener = some opener → opener.result = some (.ok cb) → Opening (isn .client) (isn .server) cb
  listener : s.listener.Agrees s.client (isn .server) (isn .client)
  ends : ∀ side r, s.ends side = some r → r.cb.sender.sendNext = isn side + SeqNumber.ofNat r.next ∧
    (r.cb.receiver.receiveNext = isn side.peer + SeqNumber.ofNat r.conn.delivered.length ∨
      r.cb.receiver.receiveNext = isn side.peer + SeqNumber.ofNat (r.conn.delivered.length + 1))
  heard : s.Attained → ¬s.Unheard

def delivered (s : Session) (side : Side) : Buffer := (s.ends side).elim [] fun r => r.conn.delivered

/-- What a step does to the ends and to the listener. -/
inductive Turn (s : Session) : Session → Prop
  | spoke {s' : Session} (hends : s'.ends = s.ends) (hclient : s'.client = s.client)
      (hlistener : s'.listener = s.listener) : Turn s s'
  | listened {s' : Session} {endpoint : SocketAddrV4} {header : TcpHeader} (hends : s'.ends = s.ends)
      (hclient : s'.client = s.client) (hreaction : s.listener.Reaction endpoint header s'.listener) : Turn s s'
  | polled {s' : Session} {r : Option (Except Fail ControlBlock)} (hends : s'.ends = s.ends)
      (hclient : s'.client = s.client) (hpoll : s.listener.pollAccept = some (r, s'.listener))
      (hother : ∀ cb, r = some (.ok cb) → cb.remote ≠ s.client) : Turn s s'
  | opened {s' : Session} {side : Side} {cb : ControlBlock} (hnone : s.ends side = none)
      (hends : s'.ends = (s.open_ side cb).ends) (hclient : s'.client = s.client)
      (hlistener : side = .client → s'.listener = s.listener) : Turn s s'
  | stepped {s' : Session} {side : Side} {r r' : StreamRun} {past : List Transmission} (hend : s.ends side = some r)
      (hends : s'.ends = (s.set side r' past).ends) (hclient : s'.client = s.client)
      (hlistener : s'.listener = s.listener) (hpushes : r.pushed <+: r'.pushed) : Turn s s'

section

variable {isn : Side → SeqNumber} {s s' : Session} {e : SessionEvent} {side : Side} {blocks : Side → ControlBlock}
  {header : TcpHeader} {data : Buffer}

/-- There is a block for each pair of numbers. -/
def placeholder (isn : Side → SeqNumber) (side : Side) : ControlBlock :=
  .new ⟨⟨0, 0, 0, 0⟩, 0⟩ ⟨⟨0, 0, 0, 0⟩, 0⟩ (isn side.peer) 0 0 0 (isn side) 0 0 0

theorem placeholder_opening (isn : Side → SeqNumber) (side : Side) :
    Opening (isn side) (isn side.peer) (placeholder isn side) :=
  ⟨opened_new (by decide) (by decide) (by decide) (by decide) (by decide), rfl, rfl⟩

theorem link_ends {r : StreamRun} (h : s.ends side = some r) (blocks : Side → ControlBlock) :
    (s.link blocks).ends side = r :=
  congrArg (Option.getD · _) h

theorem link_pushed (s : Session) (blocks : Side → ControlBlock) (side : Side) :
    ((s.link blocks).ends side).pushed = s.pushed side := by
  change ((s.ends side).getD _).pushed = (s.ends side).elim [] StreamRun.pushed
  cases s.ends side <;> rfl

theorem link_unopened (h : s.ends side = none) (blocks : Side → ControlBlock) :
    (s.link blocks).ends side = .start ⟨blocks side, .top⟩ :=
  congrArg (Option.getD · _) h

theorem link_delivered (s : Session) {isn : Side → SeqNumber} (side : Side) :
    ((s.link (placeholder isn)).ends side).conn.delivered = s.delivered side := by
  change ((s.ends side).getD _).conn.delivered = (s.ends side).elim [] fun r => r.conn.delivered
  cases s.ends side <;> rfl

theorem link_set (s : Session) (side : Side) (r : StreamRun) (past : List Transmission) (blocks : Side → ControlBlock) :
    (s.set side r past).link blocks = (s.link blocks).set side r past := by
  unfold link set Link.set
  congr 1
  funext other
  dsimp only
  split <;> rfl

/-- What was sent from an open end went out on the connection. -/
theorem sent_mem_link {t : Transmission} (h : t ∈ s.sent side) (blocks : Side → ControlBlock) :
    t ∈ (s.link blocks).sent side := by
  rcases List.mem_append.mp h with hpast | hrt
  · exact List.mem_append_left _ hpast
  · refine List.mem_append_right _ ?_
    cases hend : s.ends side with
    | none =>
      rw [hend] at hrt
      cases hrt
    | some r =>
      rw [hend] at hrt
      rw [link_ends hend]
      exact hrt

/-- What a side has sent: a SYN of the handshake, or a segment of its stream. -/
theorem Numbered.segments (h : Numbered isn s) (hblocks : ∀ side, Opening (isn side) (isn side.peer) (blocks side))
    (hseg : (header, data) ∈ s.segments side) :
    (BareSyn header data ∧ header.seqNum + SeqNumber.ofNat 1 = isn side) ∨
      (header.syn = false ∧ Genuine (isn side) ((s.link blocks).ends side).pushed
          (((s.link blocks).ends side).cb.userIsDoneSending = true) header data ∧
        NotAfter (isn side.peer) header.ackNum ((s.link blocks).ends side).cb.receiver.receiveNext) := by
  rcases List.mem_append.mp hseg with hsaid | hsent
  · obtain ⟨header', hmem, heq⟩ := List.mem_map.mp hsaid
    cases heq
    obtain ⟨hfin, hsyn, hack⟩ := h.handshakes side header hmem
    cases hflag : header.syn with
    | true => exact .inl ⟨⟨hflag, hfin, rfl⟩, hsyn hflag⟩
    | false =>
      refine .inr ⟨rfl, ⟨hflag, fun hne => absurd rfl hne, fun hyes => ?_⟩, ?_⟩
      · rw [hfin] at hyes
        cases hyes
      · rw [NotAfter, hack hflag, SeqNumber.sub_self_toNat]
        exact Nat.zero_le _
  · obtain ⟨t, ht, heq⟩ := List.mem_map.mp hsent
    cases heq
    have hknown := (h.linked blocks hblocks).sent side t (sent_mem_link ht blocks)
    exact .inr ⟨hknown.genuine.noSyn, hknown.genuine, hknown.acknowledges⟩

/-- An end opens with a block of the right numbers. -/
theorem Numbered.open_ {cb : ControlBlock} (h : Numbered isn s) (hend : s.ends side = none)
    (hcb : Opening (isn side) (isn side.peer) cb) (blocks : Side → ControlBlock)
    (hblocks : ∀ side, Opening (isn side) (isn side.peer) (blocks side)) :
    Link.Linked isn ((s.open_ side cb).link blocks) := by
  have hsame : (s.open_ side cb).link blocks = s.link fun other => if other = side then cb else blocks other := by
    unfold Session.open_ Session.set link
    congr 1
    · funext other
      dsimp only
      by_cases heq : other = side
      · rw [if_pos heq, if_pos heq, heq, hend]
        rfl
      · rw [if_neg heq, if_neg heq]
    · funext other
      dsimp only
      split
      next heq => rw [heq]
      next => rfl
  rw [hsame]
  refine h.linked _ fun other => ?_
  split
  next heq =>
    rw [heq]
    exact hcb
  next => exact hblocks other

/-- An open end makes a step. -/
theorem Numbered.set {r' : StreamRun} {past : List Transmission} (h : Numbered isn s)
    (hpast : ∀ t ∈ past, t ∈ s.sent side)
    (hstep : ∀ blocks, (∀ side, Opening (isn side) (isn side.peer) (blocks side)) → Link.Linked isn (s.link blocks) →
      EndStep (isn side) (isn side.peer) ((s.link blocks).ends side.peer) ((s.link blocks).ends side) r') :
    Numbered isn (s.set side r' past) := by
  refine ⟨h.opener, h.listener, h.scale, h.handshakes, fun blocks hblocks => ?_⟩
  have hlinked := h.linked blocks hblocks
  rw [link_set]
  exact Link.linked_set hlinked (hstep blocks hblocks hlinked) fun t ht => sent_mem_link (hpast t ht) blocks

theorem call_eq_some {event : SocketEvent} {env : Env} (h : s.call side event env = some s') :
    ∃ r r', s.ends side = some r ∧ r.step (event, env) = some r' ∧ (∀ header data, event ≠ .segment header data) ∧
      s' = s.set side r' (s.past side) := by
  unfold call at h
  split at h
  next => cases h
  next hseg =>
    obtain ⟨r, hr, h⟩ := Option.bind_eq_some_iff.mp h
    obtain ⟨r', hr', h⟩ := Option.bind_eq_some_iff.mp h
    exact ⟨r, r', hr, hr', hseg, (Option.some.inj h).symm⟩

theorem StreamRun.step_pushes {r r' : StreamRun} {e : SocketEvent × Env} (h : r.step e = some r') :
    r.pushed <+: r'.pushed := by
  obtain ⟨conn, -, rfl⟩ := Option.map_eq_some_iff.mp h
  exact List.prefix_append _ _

theorem Turn.of_arriveOpener {env : Env} (h : s.arriveOpener header env = some s') : s.Turn s' := by
  unfold arriveOpener at h
  split at h
  next =>
    cases Option.some.inj h
    exact .spoke rfl rfl rfl
  next =>
    obtain ⟨opener, -, h⟩ := Option.bind_eq_some_iff.mp h
    cases Option.some.inj h
    exact .spoke rfl rfl rfl

theorem Turn.of_arriveListener {srcAddr : Ipv4Addr} (h : s.arriveListener srcAddr header = some s') : s.Turn s' := by
  obtain ⟨⟨result, listener⟩, hreceive, h⟩ := Option.bind_eq_some_iff.mp h
  cases Option.some.inj h
  exact .listened rfl rfl (s.listener.receive_reaction hreceive)

theorem Turn.of_finishConnect {r : Option (Except Fail ControlBlock) × ActiveOpenSocket}
    (h : s.finishConnect r = some s') : s.Turn s' := by
  unfold finishConnect at h
  split at h
  next =>
    cases Option.some.inj h
    exact .spoke rfl rfl rfl
  next =>
    cases Option.some.inj h
    exact .spoke rfl rfl rfl
  next cb opener =>
    obtain ⟨hno, h⟩ := Option.ite_none_left_eq_some.mp h
    cases Option.some.inj h
    have hnone : s.ends .client = none := by simpa using hno
    exact .opened hnone rfl rfl fun _ => rfl

theorem Turn.of_accepted {r : Option (Except Fail ControlBlock)} {listener : PassiveSocket}
    (hpoll : s.listener.pollAccept = some (r, listener))
    (h : ({ s with listener := listener } : Session).accepted r = some s') : s.Turn s' := by
  unfold accepted at h
  split at h
  next cb =>
    obtain ⟨cb', hstats, h⟩ := Option.bind_eq_some_iff.mp h
    split at h
    next hother =>
      cases Option.some.inj h
      refine .polled rfl rfl hpoll fun cb₁ hcb => ?_
      cases hcb
      rw [← enableStats_remote hstats]
      exact hother
    next =>
      obtain ⟨hno, h⟩ := Option.ite_none_left_eq_some.mp h
      cases Option.some.inj h
      have hnone : s.ends .server = none := by simpa using hno
      exact .opened hnone rfl rfl fun hside => nomatch hside
  next hno =>
    cases Option.some.inj h
    exact .polled rfl rfl hpoll fun cb hcb => absurd hcb (hno cb)

theorem step_turn (h : s.step e = some s') : s.Turn s' := by
  cases e with
  | sendSyn =>
    obtain ⟨opener, -, rfl⟩ := Option.map_eq_some_iff.mp h
    exact .spoke rfl rfl rfl
  | timeOut =>
    obtain ⟨opener, -, rfl⟩ := Option.map_eq_some_iff.mp h
    exact .spoke rfl rfl rfl
  | pollConnect =>
    obtain ⟨opener, -, h⟩ := Option.bind_eq_some_iff.mp h
    exact .of_finishConnect h
  | sendSynAck =>
    obtain ⟨accept, -, rfl⟩ := Option.map_eq_some_iff.mp h
    exact .spoke rfl rfl rfl
  | stranger srcAddr header =>
    obtain ⟨-, h⟩ := Option.ite_none_left_eq_some.mp h
    exact .of_arriveListener h
  | pollAccept =>
    obtain ⟨⟨r, listener⟩, hpoll, h⟩ := Option.bind_eq_some_iff.mp h
    exact .of_accepted hpoll h
  | arrive side index env =>
    obtain ⟨segment, -, h⟩ := Option.bind_eq_some_iff.mp h
    unfold arrive at h
    split at h
    next r hend =>
      obtain ⟨r', hr, rfl⟩ := Option.map_eq_some_iff.mp h
      exact .stepped hend rfl rfl rfl (StreamRun.step_pushes hr)
    next =>
      cases side with
      | client => exact .of_arriveOpener h
      | server => exact .of_arriveListener h
  | call side event env =>
    obtain ⟨r, r', hend, hr, -, rfl⟩ := call_eq_some h
    exact .stepped hend rfl rfl rfl (StreamRun.step_pushes hr)
  | migrate side appState local_ ackDelayTimeout =>
    obtain ⟨r, hend, h⟩ := Option.bind_eq_some_iff.mp h
    obtain ⟨socket, -, h⟩ := Option.bind_eq_some_iff.mp h
    cases Option.some.inj h
    exact .stepped hend rfl rfl rfl (List.prefix_refl _)

/-- An end that is open stays open, and what was pushed there grows. -/
theorem step_grows {r : StreamRun} (h : s.step e = some s') (hend : s.ends side = some r) :
    ∃ r', s'.ends side = some r' ∧ r.pushed <+: r'.pushed := by
  cases step_turn h with
  | spoke hends => exact ⟨r, by rw [hends, hend], List.prefix_refl _⟩
  | listened hends => exact ⟨r, by rw [hends, hend], List.prefix_refl _⟩
  | polled hends => exact ⟨r, by rw [hends, hend], List.prefix_refl _⟩
  | @opened x cb hnone hends =>
    have hside : side ≠ x := by
      rintro rfl
      cases hnone.symm.trans hend
    rw [hends]
    exact ⟨r, (if_neg hside).trans hend, List.prefix_refl _⟩
  | @stepped x r₀ r₁ past hx hends _ _ hpushes =>
    rw [hends]
    by_cases hside : side = x
    · subst hside
      cases hx.symm.trans hend
      exact ⟨r₁, if_pos rfl, hpushes⟩
    · exact ⟨r, (if_neg hside).trans hend, List.prefix_refl _⟩

theorem step_short (h : s.step e = some s') (hshort : s'.Short) : s.Short := by
  intro side
  have hside := hshort side
  unfold pushed at hside ⊢
  cases hend : s.ends side with
  | none => exact Nat.lt_of_le_of_lt (Nat.le_refl 1) (by decide)
  | some r =>
    obtain ⟨r', hr', hpushes⟩ := step_grows h hend
    rw [hr'] at hside
    have hle := hpushes.length_le
    change r'.pushed.length + 1 < 2 ^ 32 at hside
    change r.pushed.length + 1 < 2 ^ 32
    omega

theorem Numbered.say {headers : List TcpHeader} (h : Numbered isn s)
    (hheaders : ∀ header ∈ headers, Says (isn side) (isn side.peer) header) : Numbered isn (s.say side headers) := by
  refine ⟨h.opener, h.listener, h.scale, fun other header hmem => ?_, h.linked⟩
  unfold Session.say at hmem
  dsimp only at hmem
  split at hmem
  next heq =>
    subst heq
    rcases List.mem_append.mp hmem with hold | hnew
    · exact h.handshakes other header hold
    · exact hheaders header hnew
  next => exact h.handshakes other header hmem

/-- The attempt comes to something else. -/
theorem Numbered.attempt {opener opener' : ActiveOpenSocket} (h : Numbered isn s) (hopener : s.opener = some opener)
    (hisn : opener'.localIsn = opener.localIsn)
    (hresult : ∀ cb, opener'.result = some (.ok cb) → Opening (isn .client) (isn .server) cb) :
    Numbered isn { s with opener := some opener' } := by
  refine ⟨fun o ho => ?_, h.listener, h.scale, h.handshakes, h.linked⟩
  cases Option.some.inj ho
  rw [hisn]
  exact ⟨(h.opener opener hopener).1, hresult⟩

theorem Numbered.arriveOpener {opener : ActiveOpenSocket} {env : Env} (h : Numbered isn s)
    (hopener : s.opener = some opener) (hseg : (header, data) ∈ s.segments .server)
    (hs : s.arriveOpener header env = some s') : Numbered isn s' := by
  unfold Session.arriveOpener at hs
  rw [hopener] at hs
  obtain ⟨opener', hreceive, hs⟩ := Option.bind_eq_some_iff.mp hs
  cases Option.some.inj hs
  obtain ⟨hnumber, hresult⟩ := h.opener opener hopener
  cases opener.receive_reaction hreceive with
  | ignored =>
    refine (h.attempt hopener rfl hresult).say fun header' hmem => ?_
    rw [List.drop_length] at hmem
    cases hmem
  | @refused e =>
    refine (h.attempt hopener (show (opener.setResult (.error e)).localIsn = _ from rfl) fun cb hcb => ?_).say
      fun header' hmem => ?_
    · cases hcb
    · change header' ∈ (opener.rt.drop opener.rt.length).map _ at hmem
      rw [List.drop_length] at hmem
      cases hmem
  | @answered cb segment hsyn hcb hnoSyn hack hnoFin hackNum =>
    have hfrom : header.seqNum + SeqNumber.ofNat 1 = isn .server := by
      rcases h.segments (placeholder_opening isn) hseg with ⟨-, hfrom⟩ | ⟨hno, -⟩
      · exact hfrom
      · rw [hsyn] at hno
        cases hno
    have hopening := opener.controlBlock_opening hcb
    rw [hnumber, hfrom] at hopening
    have hattempt : Numbered isn
        { s with opener := some ({ opener with rt := opener.rt ++ [segment] }.setResult (.ok cb)) } :=
      h.attempt hopener rfl fun cb' hcb' => by
        cases hcb'
        exact hopening
    refine hattempt.say fun header' hmem => ?_
    change header' ∈ ((opener.rt ++ [segment]).drop opener.rt.length).map _ at hmem
    rw [List.drop_left] at hmem
    cases List.mem_singleton.mp hmem
    refine ⟨hnoFin, fun hyes => ?_, fun _ => by rw [hackNum, hfrom]; rfl⟩
    rw [hnoSyn] at hyes
    cases hyes

/-- A segment for the listener. A handshake that it begins for the client takes the numbers from the client's SYN. -/
theorem Numbered.arriveListener {srcAddr : Ipv4Addr} (h : Numbered isn s)
    (hseg : (⟨srcAddr, header.srcPort⟩ : SocketAddrV4) = s.client → (header, data) ∈ s.segments .client)
    (hs : s.arriveListener srcAddr header = some s')
    (hbegins : ∀ accept, (⟨srcAddr, header.srcPort⟩ : SocketAddrV4) = s.client → s.listener.Unknown s.client →
      s'.listener.inflight.get s.client = some accept → accept.localIsn + SeqNumber.ofNat 1 = isn .server) :
    Numbered isn s' := by
  obtain ⟨⟨result, listener⟩, hreceive, hs⟩ := Option.bind_eq_some_iff.mp hs
  cases Option.some.inj hs
  have hreaction := s.listener.receive_reaction hreceive
  refine ⟨h.opener, hreaction.agrees h.listener h.scale ?_, ?_, h.handshakes, h.linked⟩
  · intro accept hremote hnew hnumber hsyn hack hentry
    refine ⟨hbegins accept hremote hnew hentry, ?_⟩
    rw [hnumber]
    rcases h.segments (placeholder_opening isn) (hseg hremote) with ⟨-, hfrom⟩ | ⟨hno, -⟩
    · exact hfrom
    · rw [hsyn] at hno
      cases hno
  · rw [hreaction.tcpConfig]
    exact h.scale

theorem Numbered.finishConnect {opener : ActiveOpenSocket} (h : Numbered isn s) (hopener : s.opener = some opener)
    (hs : s.finishConnect opener.pollResult = some s') : Numbered isn s' := by
  obtain ⟨hnumber, hresult⟩ := h.opener opener hopener
  have hdropped : Numbered isn { s with opener := none } :=
    ⟨(fun o ho => nomatch ho), h.listener, h.scale, h.handshakes, h.linked⟩
  unfold ActiveOpenSocket.pollResult Session.finishConnect at hs
  cases hcame : opener.result with
  | none =>
    rw [hcame] at hs
    cases Option.some.inj hs
    exact h.attempt hopener rfl fun cb hcb => nomatch hcb
  | some result =>
    rw [hcame] at hs
    cases result with
    | error e =>
      cases Option.some.inj hs
      exact hdropped
    | ok cb =>
      obtain ⟨hno, hs⟩ := Option.ite_none_left_eq_some.mp hs
      cases Option.some.inj hs
      exact ⟨(fun o ho => nomatch ho), h.listener, h.scale, h.handshakes,
        hdropped.open_ (by simpa using hno) (hresult cb hcame)⟩

theorem Numbered.pollAccept {r : Option (Except Fail ControlBlock)} {listener : PassiveSocket} (h : Numbered isn s)
    (hpoll : s.listener.pollAccept = some (r, listener))
    (hs : ({ s with listener := listener } : Session).accepted r = some s') : Numbered isn s' := by
  obtain ⟨hagrees, hconfig, hready⟩ := PassiveSocket.pollAccept_agrees hpoll h.listener
  have hkept : Numbered isn { s with listener := listener } :=
    ⟨h.opener, hagrees, by rw [hconfig]; exact h.scale, h.handshakes, h.linked⟩
  unfold accepted at hs
  split at hs
  next cb =>
    obtain ⟨cb', hstats, hs⟩ := Option.bind_eq_some_iff.mp hs
    split at hs
    next =>
      cases Option.some.inj hs
      exact hkept
    next hclient =>
      obtain ⟨hno, hs⟩ := Option.ite_none_left_eq_some.mp hs
      cases Option.some.inj hs
      have hremote : cb.remote = s.client := (enableStats_remote hstats).symm.trans (by simpa using hclient)
      have hopening := (hready cb rfl hremote).enableStats hstats
      have hnone : s.ends .server = none := by simpa using hno
      exact ⟨h.opener, hagrees, hkept.scale, h.handshakes, hkept.open_ hnone hopening⟩
  next =>
    cases Option.some.inj hs
    exact hkept

/-- A step keeps the numbers, apart from the one that the server chooses in it. -/
theorem numbered_step (h : Numbered isn s) (hok : s.Sound e) (hs : s.step e = some s') (hshort : s'.Short)
    (hbegins : ∀ accept, s.Unheard → s'.listener.inflight.get s.client = some accept →
      accept.localIsn + SeqNumber.ofNat 1 = isn .server) : Numbered isn s' := by
  have hbefore := step_short hs hshort
  have hshorts : ∀ blocks side, ((s.link blocks).ends side).pushed.length + 1 < 2 ^ 32 := fun blocks side => by
    rw [link_pushed]
    exact hbefore side
  cases e with
  | sendSyn =>
    obtain ⟨opener, hopener, rfl⟩ := Option.map_eq_some_iff.mp hs
    refine h.say fun header hmem => ?_
    cases List.mem_singleton.mp hmem
    exact ⟨rfl, fun _ => (h.opener opener hopener).1, fun hno => nomatch hno⟩
  | timeOut =>
    obtain ⟨opener, hopener, rfl⟩ := Option.map_eq_some_iff.mp hs
    exact h.attempt hopener rfl fun cb hcb => nomatch hcb
  | pollConnect =>
    obtain ⟨opener, hopener, hs⟩ := Option.bind_eq_some_iff.mp hs
    exact h.finishConnect hopener hs
  | sendSynAck =>
    obtain ⟨accept, haccept, rfl⟩ := Option.map_eq_some_iff.mp hs
    refine h.say fun header hmem => ?_
    cases List.mem_singleton.mp hmem
    exact ⟨rfl, fun _ => (h.listener.inflight accept haccept).1, fun hno => nomatch hno⟩
  | stranger srcAddr header =>
    obtain ⟨hother, hs⟩ := Option.ite_none_left_eq_some.mp hs
    exact @Numbered.arriveListener isn s s' header [] srcAddr h (fun heq => absurd heq hother) hs
      fun accept heq => absurd heq hother
  | pollAccept =>
    obtain ⟨⟨r, listener⟩, hpoll, hs⟩ := Option.bind_eq_some_iff.mp hs
    exact h.pollAccept hpoll hs
  | arrive side index env =>
    obtain ⟨segment, hindex, hs⟩ := Option.bind_eq_some_iff.mp hs
    have hseg := List.mem_of_getElem? hindex
    unfold arrive at hs
    split at hs
    next r hend =>
      obtain ⟨r', hr, rfl⟩ := Option.map_eq_some_iff.mp hs
      refine h.set (fun t ht => List.mem_append_left _ ht) fun blocks hblocks hlinked => ?_
      have hstreams := hlinked.streams side
      have hreads := hlinked.reads side
      have hends := link_ends hend blocks
      rw [hends] at hstreams hreads ⊢
      refine end_step hstreams hreads (hshorts blocks _) (hok r hend _ hindex) (fun header' data' heq => ?_) hr
      cases heq
      have hknown := h.segments hblocks hseg
      rw [Side.peer_peer] at hknown
      exact hknown.imp And.left And.right
    next hend =>
      cases side with
      | client =>
        cases hopener : s.opener with
        | none =>
          unfold arriveOpener at hs
          rw [hopener] at hs
          cases Option.some.inj hs
          exact h
        | some opener => exact h.arriveOpener hopener hseg hs
      | server =>
        exact h.arriveListener (fun _ => hseg) hs fun accept _ hnew hentry => hbegins accept ⟨hend, hnew⟩ hentry
  | call side event env =>
    obtain ⟨r, r', hend, hr, hseg, rfl⟩ := call_eq_some hs
    refine h.set (fun t ht => List.mem_append_left _ ht) fun blocks hblocks hlinked => ?_
    have hstreams := hlinked.streams side
    have hreads := hlinked.reads side
    rw [link_ends hend] at hstreams hreads ⊢
    exact end_step hstreams hreads (hshorts blocks _) (hok r hend) (fun header data heq => absurd heq (hseg _ _)) hr
  | migrate side appState local_ ackDelayTimeout =>
    obtain ⟨r, hend, hs⟩ := Option.bind_eq_some_iff.mp hs
    obtain ⟨socket, hmigrate, hs⟩ := Option.bind_eq_some_iff.mp hs
    cases Option.some.inj hs
    refine h.set (fun t ht => ht) fun blocks hblocks hlinked => ?_
    have hstreams := hlinked.streams side
    have hreads := hlinked.reads side
    rw [link_ends hend] at hstreams hreads ⊢
    exact migrate_step hstreams hreads (hok r hend) hmigrate

/-- What the server has heard of the client it does not forget. -/
theorem unheard_step (h : s.step e = some s') (hu : s'.Unheard) : s.Unheard := by
  have hbefore : s.ends .server = none := by
    cases hend : s.ends .server with
    | none => rfl
    | some r =>
      obtain ⟨r', hr', -⟩ := step_grows h hend
      cases hu.1.symm.trans hr'
  have hclient : s'.client = s.client := by
    cases step_turn h <;> assumption
  have hunknown := hu.2
  rw [hclient] at hunknown
  refine ⟨hbefore, ?_⟩
  cases step_turn h with
  | spoke _ _ hlistener =>
    rw [← hlistener]
    exact hunknown
  | listened _ _ hreaction => exact hreaction.unknown hunknown
  | polled _ _ hpoll hother =>
    rcases PassiveSocket.pollAccept_unknown hpoll hunknown with hbefore | ⟨cb, hcb, hremote⟩
    · exact hbefore
    · exact absurd hremote (hother cb hcb)
  | @opened side cb hnone hends _ hlistener =>
    cases side with
    | client =>
      rw [← hlistener rfl]
      exact hunknown
    | server =>
      have hopen := hu.1
      rw [hends] at hopen
      cases hopen
  | stepped _ _ _ hlistener =>
    rw [← hlistener]
    exact hunknown

theorem client_step (h : s.step e = some s') : s'.client = s.client := by
  cases step_turn h <;> assumption

theorem consistent_step {first : SeqNumber} (h : Consistent first s) (hok : s.Sound e) (hs : s.step e = some s')
    (hshort : s'.Short) : Consistent first s' := by
  obtain ⟨⟨last, hnumbered⟩, hany⟩ := h
  by_cases hu : s.Unheard
  · -- The server may choose its number in this step.
    have hkept : ∀ last, (∀ accept, s'.listener.inflight.get s.client = some accept →
        accept.localIsn + SeqNumber.ofNat 1 = last) → Numbered (numbers first last) s' :=
      fun last hlast => numbered_step (hany hu last) hok hs hshort fun accept _ => hlast accept
    refine ⟨?_, fun hu' last => hkept last fun accept haccept => ?_⟩
    · cases hentry : s'.listener.inflight.get s.client with
      | none => exact ⟨last, hkept last fun accept haccept => nomatch hentry.symm.trans haccept⟩
      | some accept =>
        refine ⟨accept.localIsn + SeqNumber.ofNat 1, hkept _ fun accept' haccept => ?_⟩
        cases hentry.symm.trans haccept
        rfl
    · have hnone := hu'.2.1
      rw [client_step hs] at hnone
      cases hnone.symm.trans haccept
  · exact ⟨⟨last, numbered_step hnumbered hok hs hshort fun accept hyes => absurd hyes hu⟩,
      fun hu' => absurd (unheard_step hs hu') hu⟩

theorem consistent_start {opener : ActiveOpenSocket} {listener : PassiveSocket} {advertisedMss : UInt16}
    (h : Fresh opener listener) :
    Consistent (opener.localIsn + SeqNumber.ofNat 1) (start opener listener advertisedMss) := by
  have hany : ∀ last, Numbered (numbers (opener.localIsn + SeqNumber.ofNat 1) last)
      (start opener listener advertisedMss) := by
    intro last
    refine ⟨fun o ho => ?_, ⟨fun accept haccept => ?_, fun cb hcb hremote => ?_⟩, h.scale, ?_, fun blocks hblocks => ?_⟩
    · cases Option.some.inj ho
      refine ⟨rfl, fun cb hcb => ?_⟩
      cases h.result.symm.trans hcb
    · cases h.unknown.1.symm.trans haccept
    · exact absurd hremote (h.unready cb hcb)
    · intro side header hmem
      cases hmem
    · have hconnected : Connected blocks :=
        ⟨fun side => (hblocks side).opened,
          fun side => by rw [(hblocks side).receiveNext, (hblocks side.peer).sendNext]⟩
      have hsame : (fun side => (blocks side).sender.sendNext) = numbers (opener.localIsn + SeqNumber.ofNat 1) last :=
        funext fun side => (hblocks side).sendNext
      rw [← hsame]
      exact Link.linked_start hconnected
  exact ⟨⟨⟨0⟩, hany _⟩, fun _ => hany⟩

theorem consistent_run {opener : ActiveOpenSocket} {listener : PassiveSocket} {advertisedMss : UInt16}
    {es : List SessionEvent} (h : Fresh opener listener)
    (hok : Admits step Sound (start opener listener advertisedMss) es)
    (hrun : run step (start opener listener advertisedMss) es = some s) (hshort : s.Short) :
    Consistent (opener.localIsn + SeqNumber.ofNat 1) s := by
  have hkeeps : s.Short → Consistent (opener.localIsn + SeqNumber.ofNat 1) s :=
    @run_reaches Session SessionEvent step (fun s => s.Short → Consistent (opener.localIsn + SeqNumber.ofNat 1) s) Sound
      (fun s e s' hi hok hs hshort => consistent_step (hi (step_short hs hshort)) hok hs hshort) _ _ _
      (fun _ => consistent_start h) hok hrun
  exact hkeeps hshort

section

variable {opener : ActiveOpenSocket} {listener : PassiveSocket} {advertisedMss : UInt16} {es : List SessionEvent}

/-- A client that counts its server as connected has read a number of the server, so that the server has one. -/
theorem Consistent.heard {first : SeqNumber} (h : Consistent first s) (hattained : s.Attained) : ¬s.Unheard := by
  intro hu
  have hno : ∀ number : SeqNumber, ¬∀ last, number = last :=
    fun number hall => absurd ((hall ⟨0⟩).symm.trans (hall ⟨1⟩)) (by decide)
  rcases hattained with hopen | ⟨opener, cb, hopener, hcb⟩
  · obtain ⟨r, hr⟩ := Option.isSome_iff_exists.mp hopen
    refine hno r.cb.receiver.receiveNext fun last => ?_
    have hread := (((h.2 hu last).linked _ (placeholder_opening _)).reads .client).readTo
    rw [link_ends hr, show Side.client.peer = .server from rfl, link_unopened hu.1] at hread
    cases hread with
    | reading hpre hnext =>
      rw [List.prefix_nil.mp hpre] at hnext
      exact hnext.trans (SeqNumber.add_ofNat_zero _)
    | finished _ hcomplete => cases hcomplete
  · exact hno cb.receiver.receiveNext fun last => (((h.2 hu last).opener opener hopener).2 cb hcb).receiveNext

/-- However the segments of a handshake are lost, repeated or late, and whatever other endpoints send to the listener,
the two sides agree on both numbers, and a client that counts as connected is known to the server. -/
theorem run_agreed (h : Fresh opener listener) (hok : Admits step Sound (start opener listener advertisedMss) es)
    (hrun : run step (start opener listener advertisedMss) es = some s) (hshort : s.Short) :
    ∃ last, Agreed (numbers (opener.localIsn + SeqNumber.ofNat 1) last) s := by
  have hconsistent := consistent_run h hok hrun hshort
  obtain ⟨last, hnumbered⟩ := hconsistent.1
  refine ⟨last, fun opener cb hopener => (hnumbered.opener opener hopener).2 cb, hnumbered.listener,
    fun side r hr => ?_, hconsistent.heard⟩
  have hlinked := hnumbered.linked _ (placeholder_opening _)
  have hsent := (hlinked.streams side).numbered
  have hread := (hlinked.reads side).readTo
  rw [link_ends hr] at hsent hread
  refine ⟨hsent, ?_⟩
  cases hread with
  | reading _ hnext => exact .inl hnext
  | finished hall _ hnext =>
    rw [hall]
    exact .inr hnext

/-- A client that is to connect to the sample listener. -/
def sampleOpener : ActiveOpenSocket :=
  .new ⟨4294967290⟩ ⟨⟨10, 0, 1, 7⟩, 50000⟩ ⟨⟨10, 0, 1, 8⟩, 10000⟩ ⟨65535, 0, 0⟩

theorem sampleOpener_fresh : Fresh sampleOpener (sampleListener 4) := by
  refine ⟨rfl, ⟨rfl, ?_⟩, fun cb hcb => ?_, by decide⟩
  · exact Finset.notMem_empty _
  · cases hcb

/-- The SYN and the SYN+ACK come twice; the text of the client completes the handshake in place of the ACK, and comes
again after the connection is accepted and has moved. -/
def sampleSession : List SessionEvent :=
  [.sendSyn, .stranger ⟨10, 0, 1, 9⟩ (sampleSyn 1000 2), .arrive .server 0 linkEnv, .sendSynAck,
    .arrive .server 0 linkEnv, .arrive .client 0 linkEnv, .pollConnect, .call .client (.push [1, 2]) linkEnv,
    .arrive .client 0 linkEnv, .arrive .server 2 linkEnv, .pollAccept,
    .migrate .server .none ⟨⟨10, 0, 1, 9⟩, 10000⟩ 0, .arrive .server 2 linkEnv]

theorem sampleSession_sound : Admits step Sound (start sampleOpener (sampleListener 4) 1460) sampleSession := by
  decide +kernel

theorem run_agreed_sample : ∃ s last, run step (start sampleOpener (sampleListener 4) 1460) sampleSession = some s ∧
    Agreed (numbers ⟨4294967291⟩ last) s := by
  have hruns : (run step (start sampleOpener (sampleListener 4) 1460) sampleSession).any
      (fun s => decide s.Short) = true := by decide +kernel
  obtain ⟨s, hrun, hs⟩ := (Option.any_eq_true _ _).mp hruns
  obtain ⟨last, hagreed⟩ := run_agreed sampleOpener_fresh sampleSession_sound hrun (of_decide_eq_true hs)
  exact ⟨s, last, hrun, hagreed⟩

/-- From its first SYN on a connection delivers at each end what was pushed at the other, and acknowledges no more than
was received: nothing pushed at one end is lost while the other is not accepted yet. -/
theorem run_transfers (h : Fresh opener listener) (hok : Admits step Sound (start opener listener advertisedMss) es)
    (hrun : run step (start opener listener advertisedMss) es = some s) (hshort : s.Short) {r : StreamRun}
    (hr : s.ends side = some r) :
    r.conn.delivered <+: s.pushed side.peer ∧
      (r.cb.state ∈ [State.closeWait, .closing, .lastAck, .timeWait] → r.conn.delivered = s.pushed side.peer) ∧
      ∃ acked : Buffer, r.pushed = acked ++ r.cb.sender.outbox.inFlight.flatten ++ r.cb.sender.outbox.waiting.flatten ∧
        acked <+: s.delivered side.peer ∧ (r.cb.finAcked = true → s.delivered side.peer = r.pushed) := by
  obtain ⟨last, hnumbered⟩ := (consistent_run h hok hrun hshort).1
  have hopening := placeholder_opening (numbers (opener.localIsn + SeqNumber.ofNat 1) last)
  have hlinked := hnumbered.linked _ hopening
  obtain ⟨hpre, hfinished⟩ := Link.linked_delivers hlinked side
  obtain ⟨acked, hpushed, hacked, hall⟩ := Link.linked_acknowledges hlinked
    (fun side => by rw [link_pushed]; exact hshort side) side
  rw [link_pushed] at hpre hfinished
  rw [link_delivered] at hacked hall
  rw [link_ends hr] at hpre hfinished hpushed hall
  exact ⟨hpre, fun hstate => (hfinished hstate).1, acked, hpushed, hacked, hall⟩

theorem run_transfers_sample : ∃ s r, run step (start sampleOpener (sampleListener 4) 1460) sampleSession = some s ∧
    s.ends .server = some r ∧ r.conn.delivered = [1, 2] ∧ r.conn.delivered <+: s.pushed .client := by
  have hruns : (run step (start sampleOpener (sampleListener 4) 1460) sampleSession).any
      (fun s => decide (s.Short ∧ (s.ends .server).any fun r => r.conn.delivered = [1, 2])) = true := by decide +kernel
  obtain ⟨s, hrun, hs⟩ := (Option.any_eq_true _ _).mp hruns
  obtain ⟨hshort, hend⟩ := of_decide_eq_true hs
  obtain ⟨r, hr, hdelivered⟩ := (Option.any_eq_true _ _).mp hend
  exact ⟨s, r, hrun, hr, of_decide_eq_true hdelivered,
    (run_transfers sampleOpener_fresh sampleSession_sound hrun hshort hr).1⟩

end

end

end Session

end Capybara
