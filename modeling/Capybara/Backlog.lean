import Capybara.Admission

namespace Capybara

open Runs

inductive BacklogEvent
  | segment (srcAddr : Ipv4Addr) (header : TcpHeader)
  | handshakeTimeout (remote : SocketAddrV4)
  | accept
  | migratedIn (cb : ControlBlock)

/-- A listener and the endpoints whose SYN+ACK task is running. -/
structure BacklogRun where
  socket : PassiveSocket
  running : Finset SocketAddrV4

namespace BacklogRun

def start (p : PassiveSocket) : BacklogRun := ⟨p, ∅⟩

/-- The task of an endpoint starts with its handshake and is dropped with it. -/
def follow (h : BacklogRun) (endpoint : SocketAddrV4) (p : PassiveSocket) : BacklogRun where
  socket := p
  running := match h.socket.inflight.get endpoint, p.inflight.get endpoint with
    | none, some _ => insert endpoint h.running
    | some _, none => h.running.erase endpoint
    | _, _ => h.running

/-- After its last SYN+ACK a task ends without a word to the socket. -/
def step (h : BacklogRun) : BacklogEvent → Option BacklogRun
  | .segment srcAddr header => do
    let (_, p) ← h.socket.receive srcAddr header
    some (h.follow ⟨srcAddr, header.srcPort⟩ p)
  | .handshakeTimeout remote => some { h with running := h.running.erase remote }
  | .accept => do
    let (_, p) ← h.socket.pollAccept
    some { h with socket := p }
  | .migratedIn cb => do
    let p ← h.socket.pushMigratedIn cb
    some { h with socket := p }

def occupied (h : BacklogRun) : Nat := h.socket.inflight.size + h.socket.ready.ready.length

/-- Only a running handshake holds a slot, and there are no more slots than the backlog has. -/
structure WithinBacklog (h : BacklogRun) : Prop where
  running : ∀ remote, (h.socket.inflight.get remote).isSome = true → remote ∈ h.running
  bound : h.occupied ≤ h.socket.maxBacklog

/-- No handshake times out, and a connection is migrated in only while a slot is free. -/
def KeepsBacklog (h : BacklogRun) : BacklogEvent → Prop
  | .handshakeTimeout remote => h.socket.inflight.get remote = none
  | .migratedIn _ => h.occupied < h.socket.maxBacklog
  | _ => True

end BacklogRun

section

variable {p p' : PassiveSocket} {srcAddr : Ipv4Addr} {header : TcpHeader} {result : Except Fail Unit}
  {h h' : BacklogRun}

/-- A handshake begins only while a slot is free. -/
theorem PassiveSocket.receiveSyn_room {remote : SocketAddrV4}
    (hr : p.receiveSyn remote header = some (result, p')) :
    p' = p ∨ p.inflight.size + p.ready.ready.length < p.maxBacklog := by
  unfold receiveSyn at hr
  split at hr
  next =>
    cases hr
    exact .inl rfl
  next =>
    split at hr
    next =>
      cases hr
      exact .inl rfl
    next hroom =>
      right
      omega

theorem PassiveSocket.receive_room (hr : p.receive srcAddr header = some (result, p'))
    (hnew : p.inflight.get ⟨srcAddr, header.srcPort⟩ = none) :
    p' = p ∨ p.inflight.size + p.ready.ready.length < p.maxBacklog := by
  unfold receive at hr
  dsimp only at hr
  split at hr
  next =>
    cases hr
    exact .inl rfl
  next =>
    rw [hnew] at hr
    exact receiveSyn_room hr

namespace BacklogRun

theorem follow_self (h : BacklogRun) (endpoint : SocketAddrV4) : h.follow endpoint h.socket = h := by
  unfold follow
  cases h.socket.inflight.get endpoint <;> rfl

theorem WithinBacklog.completes {endpoint : SocketAddrV4} {accept : InflightAccept} {cb : ControlBlock}
    {ready : ReadySockets} (hw : h.WithinBacklog) (hentry : h.socket.inflight.get endpoint = some accept)
    (hready : ready.ready = h.socket.ready.ready ++ [.ok cb]) :
    (h.follow endpoint { h.socket with
      inflight := h.socket.inflight.remove endpoint, ready := ready }).WithinBacklog := by
  have hfollow : h.follow endpoint { h.socket with inflight := h.socket.inflight.remove endpoint, ready := ready } =
      ⟨{ h.socket with inflight := h.socket.inflight.remove endpoint, ready := ready }, h.running.erase endpoint⟩ := by
    unfold follow
    rw [hentry, HashMap.get_remove, if_pos rfl]
  rw [hfollow]
  constructor
  · intro remote hremote
    dsimp only at hremote ⊢
    rw [HashMap.get_remove] at hremote
    split at hremote
    next => cases hremote
    next hne => exact Finset.mem_erase.mpr ⟨hne, hw.running remote hremote⟩
  · have hbound := hw.bound
    have hsize := HashMap.size_remove hentry
    unfold occupied at hbound ⊢
    dsimp only
    rw [hready, List.length_append, List.length_singleton]
    omega

theorem WithinBacklog.begins {endpoint : SocketAddrV4} {accept : InflightAccept} {isnGenerator : IsnGenerator}
    (hw : h.WithinBacklog) (hnew : h.socket.inflight.get endpoint = none)
    (hroom : h.occupied < h.socket.maxBacklog) :
    (h.follow endpoint { h.socket with
      inflight := h.socket.inflight.insert endpoint accept, isnGenerator := isnGenerator }).WithinBacklog := by
  have hfollow : h.follow endpoint
      { h.socket with inflight := h.socket.inflight.insert endpoint accept, isnGenerator := isnGenerator } =
        ⟨{ h.socket with inflight := h.socket.inflight.insert endpoint accept, isnGenerator := isnGenerator },
          insert endpoint h.running⟩ := by
    unfold follow
    rw [hnew, HashMap.get_insert, if_pos rfl]
  rw [hfollow]
  constructor
  · intro remote hremote
    dsimp only at hremote ⊢
    rw [HashMap.get_insert] at hremote
    split at hremote
    next heq =>
      rw [heq]
      exact Finset.mem_insert_self endpoint h.running
    next => exact Finset.mem_insert_of_mem (hw.running remote hremote)
  · have hsize := HashMap.size_insert hnew accept
    unfold occupied at hroom ⊢
    dsimp only
    omega

theorem WithinBacklog.segment (hw : h.WithinBacklog) (hr : h.socket.receive srcAddr header = some (result, p')) :
    (h.follow ⟨srcAddr, header.srcPort⟩ p').WithinBacklog := by
  have hroom := PassiveSocket.receive_room hr
  cases PassiveSocket.receive_cases hr with
  | ignored =>
    rw [follow_self]
    exact hw
  | completes hentry hunready hacked hready => exact hw.completes hentry hready
  | begins hnew =>
    rcases hroom hnew with hsame | hfree
    · rw [hsame, follow_self]
      exact hw
    · exact hw.begins hnew hfree

theorem pollAccept_leaves {r : Option (Except Fail ControlBlock)} (hp : p.pollAccept = some (r, p')) :
    p'.inflight = p.inflight ∧ p'.maxBacklog = p.maxBacklog ∧
      p'.ready.ready.length ≤ p.ready.ready.length := by
  obtain ⟨⟨result, ready⟩, hpoll, hp⟩ := Option.bind_eq_some_iff.mp hp
  cases hp
  refine ⟨rfl, rfl, ?_⟩
  unfold ReadySockets.poll at hpoll
  split at hpoll
  next => cases hpoll; exact Nat.le_refl _
  next cb ready' hready =>
    split at hpoll
    next =>
      cases hpoll
      rw [hready]
      exact Nat.le_succ _
    next => cases hpoll
  next e ready' hready =>
    cases hpoll
    rw [hready]
    exact Nat.le_succ _

theorem pushMigratedIn_adds {cb : ControlBlock} (hp : p.pushMigratedIn cb = some p') :
    p'.inflight = p.inflight ∧ p'.maxBacklog = p.maxBacklog ∧
      p'.ready.ready.length = p.ready.ready.length + 1 := by
  obtain ⟨ready, hpush, hp⟩ := Option.bind_eq_some_iff.mp hp
  cases hp
  unfold ReadySockets.pushOk at hpush
  split at hpush
  next => cases hpush
  next =>
    cases hpush
    exact ⟨rfl, rfl, List.length_append⟩

/-- A step keeps the backlog exactly if it is no timeout of a handshake that holds a slot and no import into a full
backlog. -/
theorem withinBacklog_step {e : BacklogEvent} (hw : h.WithinBacklog) (hs : h.step e = some h') :
    h'.WithinBacklog ↔ h.KeepsBacklog e := by
  cases e with
  | segment srcAddr header =>
    obtain ⟨⟨result, p⟩, hr, hs⟩ := Option.bind_eq_some_iff.mp hs
    cases Option.some.inj hs
    exact ⟨fun _ => trivial, fun _ => hw.segment hr⟩
  | handshakeTimeout remote =>
    cases Option.some.inj hs
    constructor
    · intro hw'
      refine Option.eq_none_iff_forall_not_mem.mpr fun accept hentry => ?_
      have hmem := hw'.running remote (Option.isSome_iff_exists.mpr ⟨accept, hentry⟩)
      exact absurd rfl (Finset.mem_erase.mp hmem).1
    · intro hnone
      refine ⟨fun other hother => Finset.mem_erase.mpr ⟨?_, hw.running other hother⟩, hw.bound⟩
      rintro rfl
      have hheld : (h.socket.inflight.get other).isSome = true := hother
      rw [hnone] at hheld
      cases hheld
  | accept =>
    obtain ⟨⟨result, p⟩, hpoll, hs⟩ := Option.bind_eq_some_iff.mp hs
    cases Option.some.inj hs
    obtain ⟨hinflight, hmax, hlength⟩ := pollAccept_leaves hpoll
    refine ⟨fun _ => trivial, fun _ => ⟨?_, ?_⟩⟩
    · dsimp only
      rw [hinflight]
      exact hw.running
    · have hbound := hw.bound
      unfold occupied at hbound ⊢
      dsimp only
      rw [hinflight, hmax]
      omega
  | migratedIn cb =>
    obtain ⟨p, hpush, hs⟩ := Option.bind_eq_some_iff.mp hs
    cases Option.some.inj hs
    obtain ⟨hinflight, hmax, hlength⟩ := pushMigratedIn_adds hpush
    have hoccupied : occupied { h with socket := p } = h.occupied + 1 := by
      unfold occupied
      dsimp only
      rw [hinflight]
      omega
    constructor
    · intro hw'
      have hbound := hw'.bound
      rw [hoccupied] at hbound
      change h.occupied + 1 ≤ p.maxBacklog at hbound
      change h.occupied < h.socket.maxBacklog
      omega
    · intro hfree
      refine ⟨?_, ?_⟩
      · dsimp only
        rw [hinflight]
        exact hw.running
      · rw [hoccupied]
        change h.occupied + 1 ≤ p.maxBacklog
        change h.occupied < h.socket.maxBacklog at hfree
        omega

/-- A new listener keeps to its backlog throughout a run exactly if no handshake times out and no connection is
migrated in when the backlog is full. -/
theorem backlogRun_bounded_iff {local_ : SocketAddrV4} {maxBacklog : Nat} {config : TcpConfig}
    {crc : Buffer → UInt32} {nonce : UInt32} {es : List BacklogEvent}
    (hr : run step (start (.new local_ maxBacklog config crc nonce)) es = some h) :
    Always step WithinBacklog (start (.new local_ maxBacklog config crc nonce)) es ↔
      Admits step KeepsBacklog (start (.new local_ maxBacklog config crc nonce)) es := by
  have hstart : WithinBacklog (start (.new local_ maxBacklog config crc nonce)) := by
    refine ⟨fun remote hremote => ?_, Nat.zero_le _⟩
    have hempty : ((∅ : HashMap SocketAddrV4 InflightAccept).get remote).isSome = true := hremote
    rw [HashMap.get_empty] at hempty
    cases hempty
  have hstep : ∀ h e h', True → WithinBacklog h → True → step h e = some h' →
      (WithinBacklog h' ↔ h.KeepsBacklog e) ∧ (h.KeepsBacklog e → True) :=
    fun h e h' _ hw _ hs => ⟨withinBacklog_step hw hs, fun _ => trivial⟩
  exact always_iff_admits hstep trivial hstart (admits_of_forall (fun _ _ => trivial) _ es) hr

end BacklogRun

end

namespace BacklogRun

def sampleHandshake : List BacklogEvent :=
  [.segment ⟨10, 0, 1, 7⟩ (sampleSyn 1000 2), .segment ⟨10, 0, 1, 7⟩ sampleAck, .accept]

theorem backlogRun_bounded_iff_sample : Always step WithinBacklog (start (sampleListener 0)) sampleHandshake := by
  have hgoes : (run step (start (sampleListener 0)) sampleHandshake).isSome = true := rfl
  obtain ⟨h, hr⟩ := Option.isSome_iff_exists.mp hgoes
  refine (backlogRun_bounded_iff hr).mpr (admits_of_mem (fun e he h => ?_) _)
  simp only [sampleHandshake, List.mem_cons, List.not_mem_nil, or_false] at he
  rcases he with rfl | rfl | rfl <;> trivial

/-- A connection from a client at the given port, as it comes with a migration. -/
def sampleMigrated (port : UInt16) : ControlBlock :=
  .new ⟨⟨10, 0, 1, 8⟩, 10000⟩ ⟨⟨10, 0, 1, 7⟩, port⟩ ⟨1⟩ 0 1000 0 ⟨1⟩ 1000 0 536

/-- A handshake that timed out keeps its slot, and the next SYN of its endpoint is refused; a listener with a backlog
of one takes two connections that are migrated in. -/
theorem backlogRun_bounded_iff_timeout :
    (∃ h, run step (start (sampleListener 0)) [.segment ⟨10, 0, 1, 7⟩ (sampleSyn 1000 2),
        .handshakeTimeout ⟨⟨10, 0, 1, 7⟩, 50000⟩] = some h ∧ ¬h.WithinBacklog ∧
      ∃ p, h.socket.receive ⟨10, 0, 1, 7⟩ (sampleSyn 1000 2) = some (.error ⟨.EBADMSG, "expeting ACK"⟩, p)) ∧
    ∃ h, run step (start (.new ⟨⟨10, 0, 1, 8⟩, 10000⟩ 1 ⟨65535, 0, 0⟩ (fun _ => 0) 0))
      [.migratedIn (sampleMigrated 50000), .migratedIn (sampleMigrated 50001)] = some h ∧ ¬h.WithinBacklog := by
  constructor
  · refine ⟨_, rfl, fun hw => ?_, _, rfl⟩
    have hmem := hw.running ⟨⟨10, 0, 1, 7⟩, 50000⟩ rfl
    revert hmem
    decide
  · refine ⟨_, rfl, fun hw => ?_⟩
    exact absurd hw.bound (by decide)

end BacklogRun

end Capybara
