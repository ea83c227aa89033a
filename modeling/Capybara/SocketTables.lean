import Capybara.AtomicCalls
import Capybara.HandshakeWindows
import Capybara.Lib.Index
import Capybara.TableFrames

namespace Capybara

open Index Runs

/-- A descriptor is the one of a connection in all three tables or in none of them. -/
structure Inner.TablesAgree (i : Inner) : Prop where
  qds : ∀ key qd, i.qds.get key = some qd ↔ i.sockets.get qd = some (.established key.1 key.2)
  established : ∀ key qd, i.sockets.get qd = some (.established key.1 key.2) ↔
    (i.established.get key).isSome = true ∧ ∀ qd', i.sockets.get qd' = some (.established key.1 key.2) ↔ qd' = qd

/-- No descriptor of an established connection is closed, and no connection attempt is found to have succeeded. -/
def Inner.KeepsTables (i : Inner) : InnerEvent → Prop
  | .doClose qd _ => ∀ local_ remote, i.sockets.get qd ≠ some (.established local_ remote)
  | .pollConnectFinished qd => ∀ local_ remote s cb, i.sockets.get qd = some (.connecting local_ remote) →
      i.connecting.get (local_, remote) = some s → s.result ≠ some (.ok cb)
  | _ => True

/-- The connection that a socket stands for. -/
def Socket.conn : Socket → Option Endpoints
  | .established local_ remote => some (local_, remote)
  | _ => none

namespace Inner

def connOf (i : Inner) (qd : QDesc) : Option Endpoints := (i.sockets.get qd).bind Socket.conn

/-- The keys of the connections. -/
def Live (i : Inner) (key : Endpoints) : Prop := (i.established.get key).isSome = true

section

variable {i i' : Inner} {qd : QDesc} {key : Endpoints}

theorem conn_eq_some {socket : Socket} : socket.conn = some key ↔ socket = .established key.1 key.2 := by
  unfold Socket.conn
  split
  next local_ remote =>
    constructor
    · intro heq
      cases heq
      rfl
    · intro heq
      cases heq
      rfl
  next hother =>
    refine ⟨nofun, fun heq => ?_⟩
    exact absurd heq (hother key.1 key.2)

theorem connOf_eq_some : i.connOf qd = some key ↔ i.sockets.get qd = some (.established key.1 key.2) := by
  unfold connOf
  cases i.sockets.get qd with
  | none => exact ⟨nofun, nofun⟩
  | some socket => rw [Option.bind_some, conn_eq_some, Option.some.injEq]

theorem connOf_eq_none (h : ∀ local_ remote, i.sockets.get qd ≠ some (.established local_ remote)) :
    i.connOf qd = none := by
  refine Option.eq_none_iff_forall_not_mem.mpr fun key hkey => ?_
  exact h key.1 key.2 (connOf_eq_some.mp hkey)

theorem connOf_congr (h : i'.sockets.get qd = i.sockets.get qd) : i'.connOf qd = i.connOf qd := by
  rw [connOf, connOf, h]

theorem tablesAgree_iff : i.TablesAgree ↔ Agree i.qds.get i.connOf i.Live := by
  constructor
  · intro h
    exact .of_inverse (fun key qd => (h.qds key qd).trans connOf_eq_some.symm) fun key qd hkey =>
      ((h.established key qd).mp (connOf_eq_some.mp hkey)).1
  · intro h
    refine ⟨fun key qd => (h.inverse key qd).trans connOf_eq_some, fun key qd => ?_⟩
    simp only [← connOf_eq_some]
    exact h.only key qd

theorem Undisturbed.tablesAgree (hu : i.Undisturbed i') (h : i.TablesAgree) : i'.TablesAgree := by
  refine tablesAgree_iff.mpr ((tablesAgree_iff.mp h).congr (fun key => ?_) (fun qd => ?_) fun key => ?_)
  · rw [hu.qds]
  · exact connOf_congr (by rw [hu.sockets])
  · rw [Live, hu.established, Live]

/-- A socket that is no connection becomes another one that is none. -/
theorem TablesAgree.insert {socket : Socket} (h : i.TablesAgree) (hs : i'.sockets = i.sockets.insert qd socket)
    (hq : i'.qds = i.qds) (he : i'.established = i.established) (hbefore : i.connOf qd = none)
    (hafter : socket.conn = none) : i'.TablesAgree := by
  refine tablesAgree_iff.mpr ((tablesAgree_iff.mp h).congr (fun key => ?_) (fun qd' => ?_) fun key => ?_)
  · rw [hq]
  · by_cases heq : qd' = qd
    · rw [heq, hbefore, connOf, hs, HashMap.get_insert, if_pos rfl, Option.bind_some, hafter]
    · exact connOf_congr (by rw [hs, HashMap.get_insert, if_neg heq])
  · rw [Live, he, Live]

theorem doSocket_tablesAgree (h : i.TablesAgree) (qd : QDesc) : (i.doSocket qd).2.TablesAgree := by
  unfold doSocket
  split
  next hnone => exact h.insert rfl rfl rfl (connOf_eq_none fun l r heq => by cases hnone.symm.trans heq) rfl
  next => exact h

theorem bind_tablesAgree (h : i.TablesAgree) (qd : QDesc) (addr : SocketAddrV4) : (i.bind qd addr).2.TablesAgree := by
  have hcases := i.bind_bound qd addr
  generalize i.bind qd addr = outcome at hcases
  cases hcases with
  | inUse | noPort => exact h
  | bound htakes hsocket => exact h.insert rfl rfl rfl (connOf_eq_none fun l r heq => by cases hsocket.symm.trans heq) rfl
  | rolledBack => exact ⟨h.qds, h.established⟩

theorem listen_tablesAgree (h : i.TablesAgree) (qd : QDesc) (backlog : Nat) (nonce : UInt32) :
    (i.listen qd backlog nonce).2.TablesAgree := by
  unfold listen
  split
  next local_ hsocket =>
    split
    next => exact h
    next => exact h.insert rfl rfl rfl (connOf_eq_none fun l r heq => by cases hsocket.symm.trans heq) rfl
  all_goals exact h

theorem connect_tablesAgree {remote : SocketAddrV4} {r : Except Fail Unit} (h : i.TablesAgree)
    (hr : i.connect qd remote = some (r, i')) : i'.TablesAgree := by
  have hcases := i.connect_connects qd remote
  rw [hr] at hcases
  cases hcases with
  | refused => exact h
  | starts hchooses hisn hresult =>
    obtain ⟨address, hsocket⟩ := hchooses.inactive
    exact h.insert rfl rfl rfl (connOf_eq_none fun l r heq => by cases hsocket.symm.trans heq) rfl

theorem Accepts.tablesAgree {newQd : QDesc} (ha : i.Accepts newQd i') (h : i.TablesAgree) : i'.TablesAgree := by
  cases ha with
  | stays hsame => exact hsame.tablesAgree h
  | @installs key cb hfree hqd hnew hsockets hqds hestablished =>
    refine tablesAgree_iff.mpr ((tablesAgree_iff.mp h).add hqd (connOf_eq_none hfree) ?_ ?_ (fun key' hne => ?_)
      (fun qd' hne => ?_) ?_ fun key' hlive => ?_)
    · rw [hqds, HashMap.get_insert, if_pos rfl]
    · exact connOf_eq_some.mpr (by rw [hsockets, HashMap.get_insert, if_pos rfl])
    · rw [hqds, HashMap.get_insert, if_neg hne]
    · exact connOf_congr (by rw [hsockets, HashMap.get_insert, if_neg hne])
    · rw [Live, hestablished, HashMap.get_insert, if_pos rfl]
      rfl
    · rw [Live, hestablished, HashMap.get_insert]
      split
      next => rfl
      next => exact hlive

theorem Migrates.tablesAgree (hm : i.Migrates i') (h : i.TablesAgree) : i'.TablesAgree := by
  cases hm with
  | stays hsame => exact hsame.tablesAgree h
  | @leaves qd local_ remote hsocket hsockets hqds hestablished =>
    have hconn : i.connOf qd = some (local_, remote) := connOf_eq_some.mpr hsocket
    refine tablesAgree_iff.mpr ((tablesAgree_iff.mp h).remove hconn ?_ ?_ (fun key' hne => ?_) (fun qd' hne => ?_)
      fun key' hne hlive => ?_)
    · rw [hqds, HashMap.get_remove, if_pos rfl]
    · rw [connOf, hsockets, HashMap.get_insert, if_pos rfl]
      rfl
    · rw [hqds, HashMap.get_remove, if_neg hne]
    · exact connOf_congr (by rw [hsockets, HashMap.get_insert, if_neg hne])
    · rw [Live, hestablished, HashMap.get_remove, if_neg hne]
      exact hlive

/-- An attempt that has succeeded enters two of the three tables. -/
theorem Finishes.tablesAgree_iff (hf : i.Finishes qd i') (h : i.TablesAgree) :
    i'.TablesAgree ↔ i.KeepsTables (.pollConnectFinished qd) := by
  cases hf with
  | waits hsame hgoes =>
    refine ⟨fun _ local_ remote s cb hsocket hentry hresult => ?_, fun _ => hsame.tablesAgree h⟩
    cases (hgoes local_ remote s hsocket hentry).symm.trans hresult
  | fails hsocket hentry hresult hafter =>
    subst hafter
    refine ⟨fun _ local₁ remote₁ s₁ cb₁ hsocket₁ hentry₁ hresult₁ => ?_, fun _ => ⟨h.qds, h.established⟩⟩
    cases hsocket.symm.trans hsocket₁
    cases hentry.symm.trans hentry₁
    cases hresult.symm.trans hresult₁
  | @connects local_ remote s cb hsocket hentry hresult hports hqds hsockets hconnecting =>
    constructor
    · intro h'
      have hnow : i'.sockets.get qd = some (.established local_ remote) := by
        rw [hsockets, HashMap.get_insert, if_pos rfl]
      have hqd := (h'.qds (local_, remote) qd).mpr hnow
      rw [hqds] at hqd
      cases hsocket.symm.trans ((h.qds (local_, remote) qd).mp hqd)
    · intro hkeeps
      exact absurd hresult (hkeeps local_ remote s cb hsocket hentry)

/-- A closed connection leaves one of the three tables. -/
theorem Closes.tablesAgree_iff {env : Env} (hc : i.Closes qd i') (h : i.TablesAgree) :
    i'.TablesAgree ↔ i.KeepsTables (.doClose qd env) := by
  constructor
  · intro h' local_ remote hsocket
    have hqd := (h.qds (local_, remote) qd).mpr hsocket
    rw [← hc.qds] at hqd
    have hnow := (h'.qds (local_, remote) qd).mp hqd
    rw [hc.sockets, if_pos rfl] at hnow
    cases hnow
  · intro hkeeps
    refine Inner.tablesAgree_iff.mpr ((Inner.tablesAgree_iff.mp h).congr (fun key => ?_) (fun qd' => ?_) fun key => ?_)
    · rw [hc.qds]
    · by_cases heq : qd' = qd
      · rw [heq, connOf_eq_none hkeeps, connOf, hc.sockets, if_pos rfl, Option.bind_none]
      · exact connOf_congr (by rw [hc.sockets, if_neg heq])
    · rw [Live, hc.established, Live]

theorem step_tablesAgree_iff {e : InnerEvent} (h : i.TablesAgree) (hs : i.step e = some i') :
    i'.TablesAgree ↔ i.KeepsTables e := by
  cases e with
  | doSocket qd => cases hs; exact ⟨fun _ => trivial, fun _ => doSocket_tablesAgree h qd⟩
  | bind qd addr => cases hs; exact ⟨fun _ => trivial, fun _ => bind_tablesAgree h qd addr⟩
  | listen qd backlog nonce => cases hs; exact ⟨fun _ => trivial, fun _ => listen_tablesAgree h qd backlog nonce⟩
  | pollAccept qd newQd env =>
    obtain ⟨⟨r, _⟩, hr, rfl⟩ := Option.map_eq_some_iff.mp hs
    exact ⟨fun _ => trivial, fun _ => (pollAccept_accepts hr).tablesAgree h⟩
  | connect qd remote =>
    obtain ⟨⟨r, _⟩, hr, rfl⟩ := Option.map_eq_some_iff.mp hs
    exact ⟨fun _ => trivial, fun _ => connect_tablesAgree h hr⟩
  | pollConnectFinished qd =>
    obtain ⟨⟨r, _⟩, hr, rfl⟩ := Option.map_eq_some_iff.mp hs
    exact (pollConnectFinished_finishes hr).tablesAgree_iff h
  | pollRecv qd => cases hs; exact ⟨fun _ => trivial, fun _ => (pollRecv_undisturbed i qd).tablesAgree h⟩
  | send qd buf env =>
    obtain ⟨⟨r, _⟩, hr, rfl⟩ := Option.map_eq_some_iff.mp hs
    exact ⟨fun _ => trivial, fun _ => (send_undisturbed hr).tablesAgree h⟩
  | doClose qd env =>
    obtain ⟨⟨r, _⟩, hr, rfl⟩ := Option.map_eq_some_iff.mp hs
    exact (doClose_closes hr).tablesAgree_iff h
  | segment srcAddr dstAddr header data env =>
    obtain ⟨⟨r, _⟩, hr, rfl⟩ := Option.map_eq_some_iff.mp hs
    exact ⟨fun _ => trivial, fun _ => (receive_undisturbed hr).tablesAgree h⟩
  | task key task env => exact ⟨fun _ => trivial, fun _ => (runTask_undisturbed hs).tablesAgree h⟩
  | handshakeTimeout key =>
    cases hs
    exact ⟨fun _ => trivial, fun _ => (handshakeTimeout_undisturbed i key).tablesAgree h⟩
  | tcpmig ipv4Hdr buf =>
    obtain ⟨⟨r, _⟩, hr, rfl⟩ := Option.map_eq_some_iff.mp hs
    exact ⟨fun _ => trivial, fun _ => (receiveTcpmig_migrates hr).tablesAgree h⟩
  | initiateByAddr conn => exact ⟨fun _ => trivial, fun _ => (initiateMigrationByAddr_undisturbed hs).tablesAgree h⟩
  | initiateByQd qd =>
    obtain ⟨⟨r, _⟩, hr, rfl⟩ := Option.map_eq_some_iff.mp hs
    exact ⟨fun _ => trivial, fun _ => (initiateMigrationByQd_undisturbed hr).tablesAgree h⟩
  | registerState qd state =>
    exact ⟨fun _ => trivial, fun _ => (registerApplicationState_undisturbed hs).tablesAgree h⟩
  | takeState decode qd =>
    obtain ⟨⟨r, _⟩, hr, rfl⟩ := Option.map_eq_some_iff.mp hs
    exact ⟨fun _ => trivial, fun _ => (getMigratedApplicationState_undisturbed hr).tablesAgree h⟩

/-- In a run of a new server the tables agree throughout exactly if no established connection is closed and no
connection attempt succeeds. -/
theorem run_tablesAgree_iff {crc : Buffer → UInt32} {nonce : UInt32} {ports : EphemeralPorts}
    {localLinkAddr : MacAddress} {localIpv4Addr : Ipv4Addr} {tcpConfig : TcpConfig} {recvQueueThreshold : Nat}
    {es : List InnerEvent}
    (hr : run step (.new crc nonce ports localLinkAddr localIpv4Addr tcpConfig recvQueueThreshold) es = some i) :
    Always step TablesAgree (.new crc nonce ports localLinkAddr localIpv4Addr tcpConfig recvQueueThreshold) es ↔
      Admits step KeepsTables (.new crc nonce ports localLinkAddr localIpv4Addr tcpConfig recvQueueThreshold) es := by
  have hstart : (Inner.new crc nonce ports localLinkAddr localIpv4Addr tcpConfig recvQueueThreshold).TablesAgree :=
    ⟨fun key qd => ⟨nofun, nofun⟩, fun key qd => ⟨nofun, fun h => nomatch h.1⟩⟩
  refine @always_iff_admits _ _ _ (fun _ => True) _ (fun _ _ => True) _ (fun i e i' _ h _ hs => ⟨?_, fun _ => trivial⟩)
    _ _ _ trivial hstart (admits_of_forall (fun _ _ => trivial) _ es) hr
  exact step_tablesAgree_iff h hs

end

/-- A client connects to a listening socket and the connection is accepted. -/
def acceptedEvents : List InnerEvent :=
  [.doSocket 1, .bind 1 ⟨⟨10, 0, 1, 8⟩, 10000⟩, .listen 1 8 0,
    .segment ⟨10, 0, 1, 7⟩ ⟨10, 0, 1, 8⟩ (sampleSyn 1000 2) [] linkEnv,
    .segment ⟨10, 0, 1, 7⟩ ⟨10, 0, 1, 8⟩ sampleAck [] linkEnv, .pollAccept 1 2 fun _ => linkEnv]

/-- A connection to a server is established. -/
def connectedEvents : List InnerEvent :=
  [.doSocket 1, .connect 1 ⟨⟨10, 0, 1, 7⟩, 80⟩,
    .segment ⟨10, 0, 1, 7⟩ ⟨10, 0, 1, 8⟩
      { TcpHeader.new 80 50000 with syn := true, ack := true, ackNum := ⟨1⟩, windowSize := 1000 } [] linkEnv,
    .pollConnectFinished 1]

theorem run_tablesAgree_iff_accepted : Always step TablesAgree (sampleServer [50000]) acceptedEvents := by
  have hgoes : (run step (sampleServer [50000]) acceptedEvents).isSome = true := rfl
  obtain ⟨i, hr⟩ := Option.isSome_iff_exists.mp hgoes
  have hkeeps : ∀ e ∈ acceptedEvents, ∀ i, KeepsTables i e := by simp [acceptedEvents, KeepsTables]
  exact (run_tablesAgree_iff hr).mpr (admits_of_mem hkeeps (sampleServer [50000]))

/-- The accepted connection is closed and stays in `qds`; the connection that was opened is not in `qds`. -/
theorem run_tablesAgree_iff_closed :
    (∃ i, run step (sampleServer [50000]) (acceptedEvents ++ [.doClose 2 linkEnv]) = some i ∧
      i.qds.get (⟨⟨10, 0, 1, 8⟩, 10000⟩, ⟨⟨10, 0, 1, 7⟩, 50000⟩) = some 2 ∧ i.sockets.get 2 = none ∧ ¬i.TablesAgree) ∧
    ∃ i, run step (sampleServer [50000]) connectedEvents = some i ∧
      i.sockets.get 1 = some (.established ⟨⟨10, 0, 1, 8⟩, 50000⟩ ⟨⟨10, 0, 1, 7⟩, 80⟩) ∧
      i.qds.get (⟨⟨10, 0, 1, 8⟩, 50000⟩, ⟨⟨10, 0, 1, 7⟩, 80⟩) = none ∧ ¬i.TablesAgree := by
  constructor
  · refine ⟨_, rfl, rfl, rfl, fun h => ?_⟩
    have hsocket := (h.qds (⟨⟨10, 0, 1, 8⟩, 10000⟩, ⟨⟨10, 0, 1, 7⟩, 50000⟩) 2).mp rfl
    cases hsocket
  · refine ⟨_, rfl, rfl, rfl, fun h => ?_⟩
    have hqd := (h.qds (⟨⟨10, 0, 1, 8⟩, 50000⟩, ⟨⟨10, 0, 1, 7⟩, 80⟩) 1).mpr rfl
    cases hqd

end Inner

end Capybara
