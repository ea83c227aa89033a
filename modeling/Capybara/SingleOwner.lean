import Capybara.Cluster
import Capybara.MigrationDiverges

namespace Capybara

open Runs

namespace Cluster

section

variable {c c' : Cluster} {site : Site} {e : InnerEvent} {client : SocketAddrV4} {flight : Flight}

theorem deliver_owned {returned : Bool} (h : c.Owned) (hmem : flight ∈ c.network)
    (ht : flight.target returned = some site) (hc : (c.lost flight).call site flight.datagram = some c') :
    c'.Owned := by
  have hlost : (c.lost flight).Owned := lose_owned h (if_pos hmem)
  obtain ⟨i, hi, hc⟩ := Option.bind_eq_some_iff.mp hc
  cases hstep : i.step flight.datagram with
  | none =>
    rw [hstep] at hc
    cases hc
    exact panicked_owned hlost site
  | some i' =>
    rw [hstep] at hc
    cases hc
    rw [Flight.datagram, Inner.step] at hstep
    obtain ⟨⟨r, i'⟩, hreceive, rfl⟩ := Option.map_eq_some_iff.mp hstep
    have hp := TcpMigHeader.parse_serialize flight.segment.tcpmigHdr flight.segment.ipv4Hdr flight.segment.data
    cases Inner.receiveTcpmig_reacts (h.tidy site i hi) hp hreceive with
    | calm hcalm hout hin => exact answered_calm hlost hi hcalm hout hin
    | sendsAway hsent hout hin => exact answered_sendsAway hlost hi hsent hout hin
    | stores hstored hout hin => exact answered_stores h hmem ht hi hstored hout hin
    | takesIn spot local_ htaken hout hin => exact answered_takesIn h hmem ht hi htaken hout hin

/-- A call of the application moves a connection at most within its server. -/
theorem call_owned (h : c.Owned) (hout : ∀ i : Inner, i.outgoing e = none) (hin : ∀ i : Inner, i.incoming e = none)
    (he : ∀ i i' : Inner, i.tcpmig.Tidy → i.step e = some i' →
      i.Calm i' ∨ ∃ client source target, i.Moves i' client source target)
    (hc : c.call site e = some c') : c'.Owned := by
  obtain ⟨i, hi, hc⟩ := Option.bind_eq_some_iff.mp hc
  cases hstep : i.step e with
  | none =>
    rw [hstep] at hc
    cases hc
    exact panicked_owned h site
  | some i' =>
    rw [hstep] at hc
    cases hc
    rcases he i i' (h.tidy site i hi) hstep with hcalm | ⟨client, source, target, hmoves⟩
    · exact answered_calm h hi hcalm (hout i) (hin i)
    · exact answered_moves h hi hmoves (hout i) (hin i)

theorem step_owned {event : ClusterEvent} (h : c.Owned) (hs : c.step event = some c') : c'.Owned := by
  cases event with
  | initiateByAddr site conn =>
    refine call_owned h (fun _ => rfl) (fun _ => rfl) (fun i i' _ hstep => .inl ?_) hs
    exact Inner.initiateMigrationByAddr_calm hstep
  | initiateByQd site qd =>
    refine call_owned h (fun _ => rfl) (fun _ => rfl) (fun i i' _ hstep => .inl ?_) hs
    obtain ⟨⟨r, i'⟩, hcall, rfl⟩ := Option.map_eq_some_iff.mp hstep
    exact Inner.initiateMigrationByQd_calm hcall
  | accept site qd newQd env =>
    refine call_owned h (fun _ => rfl) (fun _ => rfl) (fun i i' htidy hstep => ?_) hs
    obtain ⟨⟨r, i'⟩, hcall, rfl⟩ := Option.map_eq_some_iff.mp hstep
    exact Inner.pollAccept_moves htidy hcall
  | deliver flight returned =>
    obtain ⟨site, htarget, hs⟩ := Option.bind_eq_some_iff.mp hs
    obtain ⟨c₁, hlose, hs⟩ := Option.bind_eq_some_iff.mp hs
    unfold lose at hlose
    split at hlose <;> cases hlose
    next hmem => exact deliver_owned h hmem htarget hs
  | lose flight => exact lose_owned h hs

theorem run_owned {events : List ClusterEvent} (h : c.Owned) (hr : run step c events = some c') : c'.Owned :=
  run_reaches (fun _ _ _ ho (_ : True) hs => step_owned ho hs) h (admits_of_forall (fun _ _ => trivial) c events) hr

theorem Starts.owned (h : c.Starts) : c.Owned where
  tidy site i hi client active hget := by
    rw [h.activeMigrations site i hi] at hget
    cases hget
  safe client := by
    refine .inl ⟨h.sole client, ?_, fun site d hd => ?_, ?_⟩
    · show c.network.filter _ = []
      rw [h.network]
      rfl
    · obtain ⟨i, hi, hd⟩ := Option.bind_eq_some_iff.mp hd
      rw [TcpMigPeer.awaited, h.activeMigrations site i hi] at hd
      cases hd
    · show statesOf client c.exported = statesOf client c.imported
      rw [h.exported, h.imported]

theorem holds_held (h : c.Holds site client) : ∃ spot, 0 < c.held client (site, spot) := by
  obtain ⟨i, hi, hholds⟩ := h
  rcases hholds with ⟨key, s, hentry, hremote⟩ | ⟨local_, passive, cb, hpassive, hcb, hremote⟩
  · refine ⟨.established key, ?_⟩
    rw [held_at hi, Inner.held, hentry, Option.any_some, decide_eq_true hremote]
    exact Nat.one_pos
  · refine ⟨.ready local_, ?_⟩
    rw [held_at hi, Inner.held, hpassive]
    exact List.countP_pos_iff.mpr ⟨_, hcb, decide_eq_true hremote⟩

/-- In every order of calls, deliveries and losses, and whatever the switch gives back, at most one of the servers holds
the connection of a client, and the states of it that came in are those that went out, one for one and in their order,
except for at most the ones that went out last. -/
theorem cluster_singleOwner {events : List ClusterEvent} (h : c.Starts) (hr : run step c events = some c') :
    (∀ client, ¬(c'.Holds .frontend client ∧ c'.Holds .backend client)) ∧
      ∀ client, statesOf client c'.imported <+: statesOf client c'.exported := by
  have howned := run_owned h.owned hr
  refine ⟨fun client hboth => ?_, fun client => (howned.safe client).imported_exported⟩
  obtain ⟨spot, hspot⟩ := holds_held hboth.1
  obtain ⟨spot', hspot'⟩ := holds_held hboth.2
  cases ((howned.safe client).sole _ _ hspot hspot').1

end

def sampleConn : Endpoints := (⟨frontendIp, 10000⟩, ⟨⟨10, 0, 1, 7⟩, 50000⟩)

/-- A server with one connection. -/
def sampleFrontend : Inner :=
  { Inner.new (fun _ => 0) 0 ⟨[]⟩ frontendMac frontendIp ⟨65535, 0, 0⟩ 0 with
    sockets := HashMap.insert ∅ 2 (.established sampleConn.1 sampleConn.2)
    qds := HashMap.insert ∅ sampleConn 2
    established := HashMap.insert ∅ sampleConn sampleSocket }

/-- A server that listens. -/
def sampleBackend : Inner :=
  ((((Inner.new (fun _ => 0) 0 ⟨[]⟩ backendMac backendIp ⟨65535, 0, 0⟩ 0).doSocket 1).2.bind 1
    ⟨backendIp, 10001⟩).2.listen 1 8 0).2

def sampleCluster : Cluster where
  server
    | .frontend => some sampleFrontend
    | .backend => some sampleBackend
  network := []
  exported := []
  imported := []

def sampleState : Buffer := ((sampleSocket.cb.toState).map fun state => TcpState.encode ⟨state, .none⟩).getD []

/-- The connection goes from the frontend to the backend, and is accepted there. -/
def sampleRun : List ClusterEvent :=
  [.initiateByQd .frontend 2,
    .deliver ⟨.frontend, ⟨⟨backendMac, frontendMac, .ipv4⟩, .new frontendIp backendIp .udp,
      ⟨sampleConn.1, sampleConn.2, 28, 0, false, false, .prepareMigration, 10000, 10001⟩, []⟩⟩ false,
    .deliver ⟨.backend, ⟨⟨frontendMac, backendMac, .ipv4⟩, .new backendIp frontendIp .udp,
      ⟨sampleConn.1, sampleConn.2, 28, 0, true, false, .prepareMigrationAck, 10001, 10000⟩, []⟩⟩ false,
    .deliver ⟨.frontend, ⟨⟨backendMac, frontendMac, .ipv4⟩, .new frontendIp backendIp .udp,
      ⟨sampleConn.1, sampleConn.2, 28, 0, false, false, .connectionState, 10000, 10001⟩, sampleState⟩⟩ false,
    .accept .backend 1 2 fun _ => linkEnv]

theorem sampleFrontend_held (client : SocketAddrV4) (spot : Spot) :
    sampleFrontend.held client spot ≤ if spot = .established sampleConn then 1 else 0 := by
  cases spot with
  | ready local_ => exact Nat.zero_le _
  | established key =>
    have hget : sampleFrontend.established.get key = if key = sampleConn then some sampleSocket else none :=
      HashMap.get_insert ..
    rw [Inner.held, hget]
    by_cases hkey : key = sampleConn
    · rw [if_pos hkey, if_pos (congrArg _ hkey)]
      split
      next => exact Nat.le_refl _
      next => exact Nat.zero_le _
    · rw [if_neg hkey]
      exact Nat.zero_le _

theorem sampleBackend_held (client : SocketAddrV4) (spot : Spot) : sampleBackend.held client spot = 0 := by
  cases spot with
  | established key => rfl
  | ready local_ =>
    have hget : sampleBackend.passive.get local_ = if local_ = ⟨backendIp, 10001⟩ then
        some (.new ⟨backendIp, 10001⟩ 8 ⟨65535, 0, 0⟩ (fun _ => 0) 0) else none := HashMap.get_insert ..
    rw [Inner.held, hget]
    split <;> rfl

theorem sampleCluster_starts : sampleCluster.Starts where
  network := rfl
  exported := rfl
  imported := rfl
  activeMigrations site i hi := by
    cases site <;> cases hi <;> rfl
  sole client := by
    have hle : ∀ p, sampleCluster.held client p ≤ if p = (.frontend, .established sampleConn) then 1 else 0 := by
      rintro ⟨site, spot⟩
      cases site with
      | frontend =>
        refine (sampleFrontend_held client spot).trans (le_of_eq ?_)
        simp
      | backend => exact (sampleBackend_held client spot).trans_le (Nat.zero_le _)
    intro p q hp hq
    have hlep := hle p
    have hleq := hle q
    split at hlep
    next heq =>
      split at hleq
      next heq' => exact ⟨heq.trans heq'.symm, by omega⟩
      next => omega
    next => omega

theorem cluster_singleOwner_sample : ∃ c', run step sampleCluster sampleRun = some c' ∧
    c'.Holds .backend sampleConn.2 ∧ ¬c'.Holds .frontend sampleConn.2 := by
  have hrun : ((run step sampleCluster sampleRun).bind fun c => c.server .backend).any (fun i =>
      (i.established.get (⟨backendIp, 10001⟩, sampleConn.2)).any fun s => s.cb.remote = sampleConn.2) = true := by
    decide +kernel
  cases hr : run step sampleCluster sampleRun with
  | none =>
    rw [hr] at hrun
    cases hrun
  | some c' =>
    rw [hr, Option.bind_some, Option.any_eq_true] at hrun
    obtain ⟨i, hi, hentry⟩ := hrun
    obtain ⟨s, hs, hremote⟩ := Option.any_eq_true _ _ |>.mp hentry
    have hholds : c'.Holds .backend sampleConn.2 := ⟨i, hi, .inl ⟨_, s, hs, of_decide_eq_true hremote⟩⟩
    have hsafe := (cluster_singleOwner sampleCluster_starts hr).1 sampleConn.2
    exact ⟨c', rfl, hholds, fun hfrontend => hsafe ⟨hfrontend, hholds⟩⟩

end Cluster

end Capybara
