import Capybara.ConnectionMoves

namespace Capybara

open Token

/-- Two servers and the network between them; a server that panicked is gone. `exported` and `imported` keep the
connection states that went out of a server and came into one, oldest first. -/
structure Cluster where
  server : Site → Option Inner
  network : List Flight
  exported : List ControlBlockState
  imported : List ControlBlockState

inductive ClusterEvent
  | initiateByAddr (site : Site) (conn : Endpoints)
  | initiateByQd (site : Site) (qd : QDesc)
  | accept (site : Site) (qd newQd : QDesc) (env : Nat → Env)
  | deliver (flight : Flight) (returned : Bool)
  | lose (flight : Flight)

/-- The switch hands a message to the other server, or a PREPARE_MIGRATION back to the one that sent it. -/
def Flight.target (f : Flight) (returned : Bool) : Option Site :=
  if returned then (if f.segment.tcpmigHdr.stage = .prepareMigration then some f.sender else none)
  else some f.sender.other

/-- A fragment of the state of the client's connection. -/
def Flight.carries (f : Flight) (client : SocketAddrV4) : Bool :=
  f.segment.tcpmigHdr.stage = .connectionState ∧ f.segment.tcpmigHdr.client = client

def Flight.datagram (f : Flight) : InnerEvent :=
  .tcpmig f.segment.ipv4Hdr (f.segment.tcpmigHdr.serialize f.segment.ipv4Hdr f.segment.data ++ f.segment.data)

namespace Cluster

/-- Without a message. -/
def lost (c : Cluster) (flight : Flight) : Cluster := { c with network := c.network.erase flight }

def lose (c : Cluster) (flight : Flight) : Option Cluster :=
  if flight ∈ c.network then some (c.lost flight) else none

def panicked (c : Cluster) (site : Site) : Cluster := { c with server := Function.update c.server site none }

/-- What a server sent on an event goes out on the network. -/
def answered (c : Cluster) (site : Site) (i i' : Inner) (e : InnerEvent) : Cluster where
  server := Function.update c.server site (some i')
  network := c.network ++ (i'.tcpmig.rt.drop i.tcpmig.rt.length).map (Flight.mk site)
  exported := c.exported ++ (i.outgoing e).toList
  imported := c.imported ++ (i.incoming e).toList

def call (c : Cluster) (site : Site) (e : InnerEvent) : Option Cluster := do
  let i ← c.server site
  match i.step e with
  | none => some (c.panicked site)
  | some i' => some (c.answered site i i' e)

def step (c : Cluster) : ClusterEvent → Option Cluster
  | .initiateByAddr site conn => c.call site (.initiateByAddr conn)
  | .initiateByQd site qd => c.call site (.initiateByQd qd)
  | .accept site qd newQd env => c.call site (.pollAccept qd newQd env)
  | .deliver flight returned => do
    let site ← flight.target returned
    let c ← c.lose flight
    c.call site flight.datagram
  | .lose flight => c.lose flight

end Cluster

/-- A control block of the client is in `established` or in the ready queue of a listening socket. -/
def Inner.Holds (i : Inner) (client : SocketAddrV4) : Prop :=
  (∃ key s, i.established.get key = some s ∧ s.cb.remote = client) ∨
    ∃ local_ passive cb, i.passive.get local_ = some passive ∧ .ok cb ∈ passive.ready.ready ∧ cb.remote = client

/-- The states of a client's connection. -/
def statesOf (client : SocketAddrV4) (states : List ControlBlockState) : List ControlBlockState :=
  (states.filter fun s => s.remote = client).map ControlBlockState.portable

namespace Cluster

def Holds (c : Cluster) (site : Site) (client : SocketAddrV4) : Prop :=
  ∃ i, c.server site = some i ∧ i.Holds client

def held (c : Cluster) (client : SocketAddrV4) (p : Site × Spot) : Nat :=
  ((c.server p.1).map fun i => i.held client p.2).getD 0

/-- No migration has begun, and the connection of a client is at one place at most. -/
structure Starts (c : Cluster) : Prop where
  network : c.network = []
  exported : c.exported = []
  imported : c.imported = []
  activeMigrations : ∀ site i, c.server site = some i → i.tcpmig.activeMigrations = ∅
  sole : ∀ client, Sole (c.held client)

/-- What there is of the connection of a client. -/
def view (c : Cluster) (client : SocketAddrV4) : Custody where
  held := c.held client
  flights := c.network.filter fun f => f.carries client
  awaited site := (c.server site).bind fun i => i.tcpmig.awaited client
  exported := statesOf client c.exported
  imported := statesOf client c.imported

/-- Every connection is at one place at most, or its state is on its way. -/
structure Owned (c : Cluster) : Prop where
  tidy : ∀ site i, c.server site = some i → i.tcpmig.Tidy
  safe : ∀ client, (c.view client).Safe client

section

variable {c c' : Cluster} {site : Site} {i i' : Inner} {e : InnerEvent} {client : SocketAddrV4} {flight : Flight}

theorem statesOf_append (client : SocketAddrV4) (states states' : List ControlBlockState) :
    statesOf client (states ++ states') = statesOf client states ++ statesOf client states' := by
  rw [statesOf, List.filter_append, List.map_append]
  rfl

theorem statesOf_other {o : Option ControlBlockState} (h : ∀ s, o = some s → s.remote ≠ client) :
    statesOf client o.toList = [] := by
  cases o with
  | none => rfl
  | some s =>
    rw [statesOf, Option.toList_some, List.filter_cons_of_neg (by simpa using h s rfl)]
    rfl

theorem no_state {o : Option ControlBlockState} (h : o = none) (client : SocketAddrV4) :
    ∀ s, o = some s → s.remote ≠ client := by
  rw [h]
  exact fun s heq => by cases heq

theorem statesOf_mine {s : ControlBlockState} (h : s.remote = client) :
    statesOf client (some s).toList = [s.portable] := by
  rw [statesOf, Option.toList_some, List.filter_cons_of_pos (by simpa using h)]
  rfl

theorem held_update {o : Option Inner} (hs : c'.server = Function.update c.server site o) (client : SocketAddrV4)
    (p : Site × Spot) :
    c'.held client p = if p.1 = site then (o.map fun i => i.held client p.2).getD 0 else c.held client p := by
  rw [held, hs, Function.update_apply]
  split <;> rfl

theorem awaited_update {o : Option Inner} (hs : c'.server = Function.update c.server site o) (client : SocketAddrV4)
    (site' : Site) : (c'.view client).awaited site' =
      if site' = site then o.bind fun i => i.tcpmig.awaited client else (c.view client).awaited site' := by
  rw [view]
  dsimp only
  rw [hs, Function.update_apply]
  split <;> rfl

theorem held_at (hi : c.server site = some i) (client : SocketAddrV4) (spot : Spot) :
    c.held client (site, spot) = i.held client spot := by
  rw [held, hi]
  rfl

/-- At the other server nothing changes. -/
theorem held_le_update {P : Site × Spot → Prop} (hs : c'.server = Function.update c.server site (some i'))
    (hi : c.server site = some i) (hle : ∀ spot, P (site, spot) → i'.held client spot ≤ i.held client spot) :
    ∀ p, P p → c'.held client p ≤ c.held client p := by
  rintro ⟨site', spot⟩ hp
  rw [held_update hs]
  split
  next heq =>
    have hsite : site' = site := heq
    subst hsite
    rw [held_at hi]
    exact hle spot hp
  next => exact Nat.le_refl _

theorem held_le_all (hs : c'.server = Function.update c.server site (some i')) (hi : c.server site = some i)
    (hle : ∀ spot, i'.held client spot ≤ i.held client spot) (p : Site × Spot) : c'.held client p ≤ c.held client p :=
  held_le_update (P := fun _ => True) hs hi (fun spot _ => hle spot) p trivial

theorem panicked_owned (h : c.Owned) (site : Site) : (c.panicked site).Owned where
  tidy site' j hj := by
    have hupdate : Function.update c.server site none site' = some j := hj
    rw [Function.update_apply] at hupdate
    split at hupdate
    next => cases hupdate
    next => exact h.tidy site' j hupdate
  safe client := by
    refine (h.safe client).fades ⟨.refl _, fun site' d hd => ?_, rfl, rfl⟩ fun p => ?_
    · rw [awaited_update (c := c) (o := none) rfl] at hd
      split at hd
      next => cases hd
      next => exact .inr hd
    · have hheld : (c.panicked site).held client p = if p.1 = site then 0 else c.held client p :=
        held_update (o := none) rfl client p
      refine hheld.trans_le ?_
      split
      next => exact Nat.zero_le _
      next => exact Nat.le_refl _

theorem lose_owned (h : c.Owned) (hl : c.lose flight = some c') : c'.Owned := by
  unfold lose at hl
  split at hl <;> cases hl
  refine ⟨h.tidy, fun client => ?_⟩
  have hsub : (c.network.erase flight).Sublist c.network := List.erase_sublist
  exact (h.safe client).fades ⟨(hsub.filter _).subperm, fun _ _ hd => .inr hd, rfl, rfl⟩ fun _ => Nat.le_refl _

theorem answered_tidy (h : c.Owned) (ht : i'.tcpmig.Tidy) (site' : Site) (j : Inner)
    (hj : (c.answered site i i' e).server site' = some j) : j.tcpmig.Tidy := by
  have hupdate : Function.update c.server site (some i') site' = some j := hj
  rw [Function.update_apply] at hupdate
  split at hupdate
  next =>
    cases hupdate
    exact ht
  next => exact h.tidy site' j hupdate

/-- The fragments for a client among what a server has sent. -/
theorem answered_flights {p : TcpMigPeer} {out : List TcpMigSegment} (hq : i.tcpmig.Quiet p)
    (hrt : i'.tcpmig.rt = p.rt ++ out) (client : SocketAddrV4) : ((c.answered site i i' e).view client).flights =
      (c.view client).flights ++ (out.map (Flight.mk site)).filter fun f => f.carries client := by
  obtain ⟨quiet, hquiet, hnone⟩ := hq
  have hsent : i'.tcpmig.rt.drop i.tcpmig.rt.length = quiet ++ out := by
    rw [hrt, hquiet, List.append_assoc, List.drop_left]
  have hempty : (quiet.map (Flight.mk site)).filter (fun f => f.carries client) = [] := by
    rw [List.filter_eq_nil_iff]
    intro f hf hcarries
    obtain ⟨s, hs, rfl⟩ := List.mem_map.mp hf
    exact hnone s hs (of_decide_eq_true hcarries).1
  show List.filter _ (c.network ++ (i'.tcpmig.rt.drop i.tcpmig.rt.length).map (Flight.mk site)) = _
  rw [hsent, List.map_append, List.filter_append, List.filter_append, hempty, List.nil_append]
  rfl

theorem answered_quiet (hq : i.tcpmig.Quiet i'.tcpmig) (client : SocketAddrV4) :
    ((c.answered site i i' e).view client).flights = (c.view client).flights := by
  rw [answered_flights hq (List.append_nil _).symm client]
  exact List.append_nil _

theorem answered_exported (hout : ∀ s, i.outgoing e = some s → s.remote ≠ client) :
    ((c.answered site i i' e).view client).exported = (c.view client).exported := by
  show statesOf client (c.exported ++ (i.outgoing e).toList) = _
  rw [statesOf_append, statesOf_other hout, List.append_nil]
  rfl

theorem answered_imported (hin : ∀ s, i.incoming e = some s → s.remote ≠ client) :
    ((c.answered site i i' e).view client).imported = (c.view client).imported := by
  show statesOf client (c.imported ++ (i.incoming e).toList) = _
  rw [statesOf_append, statesOf_other hin, List.append_nil]
  rfl

theorem answered_awaited (hi : c.server site = some i)
    (hd : ∀ d, i'.tcpmig.awaited client = some d → d = .new ∨ i.tcpmig.awaited client = some d) (site' : Site)
    (d : TcpMigDefragmenter) (h : ((c.answered site i i' e).view client).awaited site' = some d) :
    d = .new ∨ (c.view client).awaited site' = some d := by
  rw [awaited_update (c := c) (o := some i') rfl] at h
  split at h
  next heq =>
    subst heq
    rcases hd d h with hnew | hold
    · exact .inl hnew
    · refine .inr ?_
      show (c.server site').bind _ = _
      rw [hi]
      exact hold
  next => exact .inr h

/-- An event that brings nothing of a client. -/
theorem answered_fades (hi : c.server site = some i)
    (hflights : ((c.answered site i i' e).view client).flights = (c.view client).flights)
    (hd : ∀ d, i'.tcpmig.awaited client = some d → d = .new ∨ i.tcpmig.awaited client = some d)
    (hout : ∀ s, i.outgoing e = some s → s.remote ≠ client)
    (hin : ∀ s, i.incoming e = some s → s.remote ≠ client) :
    (c.view client).Fades ((c.answered site i i' e).view client) where
  flights := hflights ▸ .refl _
  awaited := answered_awaited hi hd
  exported := answered_exported hout
  imported := answered_imported hin

theorem answered_calm (h : c.Owned) (hi : c.server site = some i) (hcalm : i.Calm i') (hout : i.outgoing e = none)
    (hin : i.incoming e = none) : (c.answered site i i' e).Owned where
  tidy := answered_tidy h (hcalm.tcpmig.tidy (h.tidy site i hi))
  safe client := by
    refine (h.safe client).fades (answered_fades hi (answered_quiet hcalm.tcpmig.quiet client)
      (hcalm.tcpmig.awaited client) (no_state hout client) (no_state hin client)) ?_
    exact held_le_all rfl hi (hcalm.held_le client)

theorem answered_moves {source target : Spot} (h : c.Owned) (hi : c.server site = some i)
    (hmoves : i.Moves i' client source target) (hout : i.outgoing e = none) (hin : i.incoming e = none) :
    (c.answered site i i' e).Owned where
  tidy := answered_tidy h (hmoves.tcpmig.tidy (h.tidy site i hi))
  safe client' := by
    have hfades : (c.view client').Fades ((c.answered site i i' e).view client') :=
      answered_fades hi (answered_quiet hmoves.tcpmig.quiet client') (hmoves.tcpmig.awaited client')
        (no_state hout client') (no_state hin client')
    have hafter : ∀ client spot, (c.answered site i i' e).held client (site, spot) = i'.held client spot :=
      held_at (Function.update_self _ _ _)
    by_cases hclient : client' = client
    · subst hclient
      refine (h.safe client').moves hfades (p := (site, source)) (q := (site, target)) ?_ ?_ ?_ fun r hr => ?_
      · exact fun heq => hmoves.ne (Prod.mk.inj heq).2
      · show (c.answered site i i' e).held client' (site, source) + 1 ≤ c.held client' (site, source)
        rw [hafter, held_at hi]
        exact hmoves.source_le
      · show (c.answered site i i' e).held client' (site, target) ≤ c.held client' (site, target) + 1
        rw [hafter, held_at hi]
        exact hmoves.target_le
      · exact held_le_update (P := fun r => r ≠ (site, target)) rfl hi
          (fun spot hne => hmoves.held_le client' spot fun _ heq => hne (congrArg _ heq)) r hr
    · refine (h.safe client').fades hfades (held_le_all rfl hi fun spot => ?_)
      exact hmoves.held_le client' spot fun heq => absurd heq hclient

theorem answered_sendsAway {spot : Spot} {message : TcpMigSegment} {state : TcpState} (h : c.Owned)
    (hi : c.server site = some i) (hsent : i.SendsAway i' spot message state) (hout : i.outgoing e = some state.cb)
    (hin : i.incoming e = none) : (c.answered site i i' e).Owned where
  tidy := answered_tidy h hsent.tidy
  safe client := by
    obtain ⟨p, hquiet, hrt⟩ := hsent.rt
    have hflights : ((c.answered site i i' e).view client).flights = (c.view client).flights ++
        (((List.range message.fragmentCount).map message.fragment).map (Flight.mk site)).filter
          fun f => f.carries client := answered_flights hquiet hrt client
    have himported := no_state hin client
    have hheld : ∀ p, (c.answered site i i' e).held client p ≤ c.held client p :=
      held_le_all rfl hi (hsent.held_le client)
    by_cases hclient : state.cb.remote = client
    · have hall : (((List.range message.fragmentCount).map message.fragment).map (Flight.mk site)).filter
          (fun f => f.carries client) = (List.range message.fragmentCount).map fun k => ⟨site, message.fragment k⟩ := by
        rw [List.map_map, List.filter_eq_self.mpr]
        · rfl
        · intro f hf
          obtain ⟨k, -, rfl⟩ := List.mem_map.mp hf
          exact decide_eq_true ⟨hsent.stage, hsent.client.trans hclient⟩
      rw [hall] at hflights
      refine (h.safe client).exports (p := (site, spot)) ?_ hheld hsent.count_lt hsent.data hsent.fits hclient hflights
        (answered_awaited hi (hsent.awaited client)) ?_ (answered_imported himported)
      · show (c.answered site i i' e).held client (site, spot) + 1 ≤ c.held client (site, spot)
        rw [held_at (Function.update_self _ _ _), held_at hi, ← hclient]
        exact hsent.spot_le
      · show statesOf client (c.exported ++ (i.outgoing e).toList) = _
        rw [statesOf_append, hout, statesOf_mine hclient]
        rfl
    · have hnone : (((List.range message.fragmentCount).map message.fragment).map (Flight.mk site)).filter
          (fun f => f.carries client) = [] := by
        rw [List.map_map, List.filter_eq_nil_iff]
        intro f hf hcarries
        obtain ⟨k, -, rfl⟩ := List.mem_map.mp hf
        exact hclient (hsent.client.symm.trans (of_decide_eq_true hcarries).2)
      rw [hnone, List.append_nil] at hflights
      refine (h.safe client).fades (answered_fades hi hflights (hsent.awaited client) ?_ himported) hheld
      rw [hout]
      intro s heq
      cases heq
      exact hclient

theorem target_of_state {returned : Bool} (hstage : flight.segment.tcpmigHdr.stage = .connectionState)
    (ht : flight.target returned = some site) : site = flight.sender.other := by
  cases returned with
  | false => exact (Option.some.inj ht).symm
  | true =>
    rw [Flight.target, if_pos rfl, if_neg (by rw [hstage]; exact fun heq => by cases heq)] at ht
    cases ht

theorem lost_flights (c : Cluster) (flight : Flight) (client : SocketAddrV4) :
    ((c.lost flight).view client).flights = (c.view client).flights.erase flight := List.erase_filter.symm

/-- A fragment that the network brings to a server that waits for it is one of a state on its way. -/
theorem fragment_arrives {d : TcpMigDefragmenter} {returned : Bool} (h : c.Owned) (hmem : flight ∈ c.network)
    (ht : flight.target returned = some site) (hi : c.server site = some i)
    (hstage : flight.segment.tcpmigHdr.stage = .connectionState)
    (hd : i.tcpmig.awaited flight.segment.tcpmigHdr.client = some d) :
    site = flight.sender.other ∧ ∃ message state k way seen, flight.segment = message.fragment k ∧
      (c.view flight.segment.tcpmigHdr.client).Travels flight.segment.tcpmigHdr.client flight.sender message state
        (k :: way) seen ∧ (c.view flight.segment.tcpmigHdr.client).awaited flight.sender.other = some d := by
  have hsite := target_of_state hstage ht
  have hflight : flight ∈ (c.view flight.segment.tcpmigHdr.client).flights :=
    List.mem_filter.mpr ⟨hmem, decide_eq_true ⟨hstage, rfl⟩⟩
  obtain ⟨message, state, k, way, seen, hsegment, htravels⟩ := (h.safe _).arrives hflight
  refine ⟨hsite, message, state, k, way, seen, hsegment, htravels, ?_⟩
  rw [← hsite]
  show (c.server site).bind _ = _
  rw [hi]
  exact hd

/-- The server that a fragment goes to is not its sender. -/
theorem answered_sender {site' : Site} (hsite : site = site'.other) (client : SocketAddrV4) :
    ((c.answered site i i' e).view client).awaited site' = (c.view client).awaited site' := by
  refine (awaited_update (c := c) (o := some i') rfl client site').trans (if_neg fun heq => ?_)
  rw [← heq] at hsite
  cases site' <;> cases hsite

theorem answered_stores {d d' : TcpMigDefragmenter} {returned : Bool} (h : c.Owned) (hmem : flight ∈ c.network)
    (ht : flight.target returned = some site) (hi : c.server site = some i)
    (hstored : i.Stores i' flight.segment.tcpmigHdr flight.segment.data d d') (hout : i.outgoing e = none)
    (hin : i.incoming e = none) : ((c.lost flight).answered site i i' e).Owned := by
  have hlost : (c.lost flight).Owned := lose_owned h (if_pos hmem)
  have hi' : (c.lost flight).server site = some i := hi
  refine ⟨answered_tidy hlost (hstored.tidy (h.tidy site i hi)), fun client => ?_⟩
  have hheld : ∀ p, ((c.lost flight).answered site i i' e).held client p ≤ c.held client p :=
    held_le_all (c := c.lost flight) rfl hi' (hstored.held_le client)
  have hflights : (((c.lost flight).answered site i i' e).view client).flights = ((c.lost flight).view client).flights :=
    answered_quiet hstored.quiet client
  by_cases hclient : client = flight.segment.tcpmigHdr.client
  swap
  · refine (hlost.safe client).fades (answered_fades hi' hflights (fun d hd => ?_) (no_state hout client)
      (no_state hin client)) hheld
    rw [hstored.after, if_neg hclient] at hd
    exact .inr hd
  subst hclient
  obtain ⟨hsite, message, state, k, way, seen, hsegment, htravels, hawaited⟩ :=
    fragment_arrives h hmem ht hi hstored.stage hstored.before
  have hdefrag := htravels.defragments hawaited
  rw [← hsegment, hstored.defragment] at hdefrag
  rcases hdefrag with ⟨d₁, heq, hparts, htotal⟩ | ⟨-, whole, d₁, heq⟩
  swap
  · cases heq
  cases heq
  refine .inr ⟨flight.sender, message, state, way, k :: seen, htravels.stores hparts htotal hheld ?_ ?_
    (answered_sender hsite _) (answered_exported (no_state hout _)) (answered_imported (no_state hin _))⟩
  · rw [hflights, lost_flights, ← hsegment]
  · refine (awaited_update (c := c.lost flight) (o := some i') rfl _ _).trans ((if_pos hsite.symm).trans ?_)
    exact (hstored.after _).trans (if_pos rfl)

theorem answered_takesIn {d : TcpMigDefragmenter} {state : TcpState} {spot : Spot} {local_ : SocketAddrV4}
    {returned : Bool} (h : c.Owned) (hmem : flight ∈ c.network) (ht : flight.target returned = some site)
    (hi : c.server site = some i)
    (htaken : i.TakesIn i' flight.segment.tcpmigHdr flight.segment.data d state spot) (hout : i.outgoing e = none)
    (hin : i.incoming e = some (state.cb.setLocal local_)) : ((c.lost flight).answered site i i' e).Owned := by
  have hlost : (c.lost flight).Owned := lose_owned h (if_pos hmem)
  have hi' : (c.lost flight).server site = some i := hi
  obtain ⟨hsite, message, sent, k, way, seen, hsegment, htravels, hawaited⟩ :=
    fragment_arrives h hmem ht hi htaken.stage htaken.before
  obtain ⟨whole, all, d', hcomplete, hstate⟩ := htaken.defragment
  have hdefrag := htravels.defragments hawaited
  rw [← hsegment, hcomplete] at hdefrag
  rcases hdefrag with ⟨d₁, heq, -⟩ | ⟨hway, hdr, d₁, heq⟩
  · cases heq
  cases heq
  subst hway
  rw [TcpState.deserialize_encode htravels.fits] at hstate
  cases hstate
  have hremote := htravels.remote
  refine ⟨answered_tidy hlost (htaken.tidy (h.tidy site i hi)), fun client => ?_⟩
  have hflights : (((c.lost flight).answered site i i' e).view client).flights = ((c.lost flight).view client).flights :=
    answered_quiet htaken.quiet client
  by_cases hclient : client = flight.segment.tcpmigHdr.client
  swap
  · have hother : ∀ s, i.incoming e = some s → s.remote ≠ client := by
      rw [hin]
      intro s heq
      cases heq
      exact fun hsame => hclient (hsame.symm.trans hremote)
    refine (hlost.safe client).fades (answered_fades hi' hflights (fun d hd => ?_) (no_state hout client) hother)
      (held_le_all (c := c.lost flight) rfl hi' fun spot => ?_)
    · rw [htaken.after, if_neg hclient] at hd
      exact .inr hd
    · exact htaken.held_le client spot fun hsame => absurd (hsame.trans hremote) hclient
  subst hclient
  refine .inl (htravels.imports (q := (site, spot)) ?_ (fun r hr => ?_) ?_ ?_ (answered_sender hsite _)
    (answered_exported (no_state hout _)) ?_)
  · show ((c.lost flight).answered site i i' e).held _ (site, spot) ≤ c.held _ (site, spot) + 1
    rw [held_at (Function.update_self _ _ _), held_at hi, ← hremote]
    exact htaken.spot_le
  · exact held_le_update (c := c.lost flight) (P := fun r => r ≠ (site, spot)) rfl hi'
      (fun spot' hne => htaken.held_le _ spot' fun _ heq => hne (congrArg _ heq)) r hr
  · rw [hflights, lost_flights, ← hsegment]
  · refine (awaited_update (c := c.lost flight) (o := some i') rfl _ _).trans ((if_pos hsite.symm).trans ?_)
    exact (htaken.after _).trans (if_pos rfl)
  · show statesOf _ (c.imported ++ (i.incoming e).toList) = _
    have hmine := statesOf_mine (s := sent.cb.resetTx.setLocal local_) hremote
    rw [statesOf_append, hin, hmine, ControlBlockState.setLocal, ControlBlockState.portable_received]
    rfl

end

end Cluster

end Capybara
