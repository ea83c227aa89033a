import Capybara.Lib.Runs
import Capybara.TcpHeaderCodec

namespace Capybara

/-- A TCP segment with all its headers. -/
structure WireSegment where
  ethernet2Hdr : Ethernet2Header
  ipv4Hdr : Ipv4Header
  tcpHdr : TcpHeader
  data : Option Buffer
  txChecksumOffload : Bool
  deriving DecidableEq, Repr

def backendServers : List SocketAddrV4 :=
  [⟨⟨10, 0, 1, 9⟩, 10000⟩, ⟨⟨10, 0, 1, 9⟩, 10001⟩, ⟨⟨10, 0, 1, 9⟩, 10002⟩, ⟨⟨10, 0, 1, 9⟩, 10003⟩]

/-- The fields of `Inner` that forwarding uses, and the counter `BE_IDX`. -/
structure SoftwareSwitch where
  localLinkAddr : MacAddress
  localIpv4Addr : Ipv4Addr
  rxChecksumOffload : Bool
  numBackends : Nat
  migrationDirectory : HashMap SocketAddrV4 SocketAddrV4
  beIdx : Nat
  transmitted : List WireSegment

/-- A segment that comes in, with what the ARP cache answers then: it knows the backends, and the segment is the payload
of one datagram. -/
structure Arrival where
  ethHdr : Ethernet2Header
  ipHdr : Ipv4Header
  buf : Buffer
  tryQuery : Ipv4Addr → Option MacAddress
  fits : buf.length < 2 ^ 16
  cached : ∀ be ∈ backendServers, (tryQuery be.ip).isSome = true

namespace Arrival

def srcAddr (a : Arrival) (tcpHdr : TcpHeader) : SocketAddrV4 := ⟨a.ipHdr.srcAddr, tcpHdr.srcPort⟩

def dstAddr (a : Arrival) (tcpHdr : TcpHeader) : SocketAddrV4 := ⟨a.ipHdr.dstAddr, tcpHdr.dstPort⟩

end Arrival

namespace SoftwareSwitch

def new (localLinkAddr : MacAddress) (localIpv4Addr : Ipv4Addr) (rxChecksumOffload : Bool) (numBackends : Nat) :
    SoftwareSwitch :=
  ⟨localLinkAddr, localIpv4Addr, rxChecksumOffload, numBackends, ∅, 0, []⟩

/-- The segment with a backend as its destination. -/
def toBackend (s : SoftwareSwitch) (a : Arrival) (tcpHdr : TcpHeader) (data : Buffer) (be : SocketAddrV4)
    (mac : MacAddress) : WireSegment where
  ethernet2Hdr := { a.ethHdr with dstAddr := mac }
  ipv4Hdr := { a.ipHdr with dstAddr := be.ip }
  tcpHdr := { tcpHdr with dstPort := be.port }
  data := some data
  txChecksumOffload := s.rxChecksumOffload

/-- The segment with the switch as its source. -/
def fromSwitch (s : SoftwareSwitch) (a : Arrival) (tcpHdr : TcpHeader) (data : Buffer) : WireSegment where
  ethernet2Hdr := { a.ethHdr with srcAddr := s.localLinkAddr }
  ipv4Hdr := { a.ipHdr with srcAddr := s.localIpv4Addr }
  tcpHdr := { tcpHdr with srcPort := 10000 }
  data := some data
  txChecksumOffload := s.rxChecksumOffload

def transmit (s : SoftwareSwitch) (segment : WireSegment) : SoftwareSwitch :=
  { s with transmitted := s.transmitted ++ [segment] }

def receiveSyn (s : SoftwareSwitch) (a : Arrival) (tcpHdr : TcpHeader) (data : Buffer) : Option SoftwareSwitch := do
  let be ← backendServers[s.beIdx]?
  let beMac ← a.tryQuery be.ip
  if (s.migrationDirectory.get (a.srcAddr tcpHdr)).isSome then none
  else
    let directory := s.migrationDirectory.insert (a.srcAddr tcpHdr) be
    let s := s.transmit (s.toBackend a tcpHdr data be beMac)
    if s.numBackends = 0 then none
    else some { s with migrationDirectory := directory, beIdx := (s.beIdx + 1) % s.numBackends }

def receiveOther (s : SoftwareSwitch) (a : Arrival) (tcpHdr : TcpHeader) (data : Buffer) : Option SoftwareSwitch :=
  match s.migrationDirectory.get (a.srcAddr tcpHdr), s.migrationDirectory.get (a.dstAddr tcpHdr) with
  | some target, none => do
    let targetMac ← a.tryQuery target.ip
    some (s.transmit (s.toBackend a tcpHdr data target targetMac))
  | none, some _ => some (s.transmit (s.fromSwitch a tcpHdr data))
  | some _, some _ => none
  | none, none => none

def receive (s : SoftwareSwitch) (a : Arrival) : Option (Except Fail Unit × SoftwareSwitch) := do
  match ← TcpHeader.parse a.ipHdr a.buf s.rxChecksumOffload with
  | .error e => some (.error e, s)
  | .ok (tcpHdr, data) =>
    let s ← (if tcpHdr.syn && !tcpHdr.ack then s.receiveSyn a tcpHdr data else s.receiveOther a tcpHdr data :
      Option SoftwareSwitch)
    some (.ok (), s)

def step (s : SoftwareSwitch) (a : Arrival) : Option SoftwareSwitch := (s.receive a).map fun r => r.2

end SoftwareSwitch

/-- The parser does not panic on what one datagram holds. -/
theorem Arrival.parses (a : Arrival) (offload : Bool) :
    ∃ parsed, TcpHeader.parse a.ipHdr a.buf offload = some parsed := by
  cases hp : TcpHeader.parse a.ipHdr a.buf offload with
  | some parsed => exact ⟨parsed, rfl⟩
  | none =>
    obtain ⟨-, n, hf, hsum⟩ := TcpHeader.parse_eq_none_iff.mp hp
    have hlen := hf.length_take
    have hbuf : (a.buf.take n).length + (a.buf.drop n).length = a.buf.length := by
      rw [← List.length_append, List.take_append_drop]
    have hfits := a.fits
    exact absurd (tcpSumFits_of_le a.ipHdr (by rw [hlen]; exact hf.lower) (by rw [hlen]; exact hf.even) (by omega)) hsum

/-- The client of a segment that opens a connection. -/
def Arrival.opens (a : Arrival) (offload : Bool) : Option SocketAddrV4 :=
  match TcpHeader.parse a.ipHdr a.buf offload with
  | some (.ok (tcpHdr, _)) => if tcpHdr.syn && !tcpHdr.ack then some (a.srcAddr tcpHdr) else none
  | _ => none

/-- The backend of a client: the SYNs take the backends in turn, and the first one of the client decides. -/
def chosen (numBackends : Nat) (clients : List SocketAddrV4) (c : SocketAddrV4) : Option SocketAddrV4 :=
  if c ∈ clients then backendServers[clients.idxOf c % numBackends]? else none

namespace SoftwareSwitch

/-- A SYN comes from somebody new, and of the endpoints of another segment exactly one is a known client. -/
def Orderly (s : SoftwareSwitch) (a : Arrival) : Prop :=
  ∀ tcpHdr data, TcpHeader.parse a.ipHdr a.buf s.rxChecksumOffload = some (.ok (tcpHdr, data)) →
    if tcpHdr.syn && !tcpHdr.ack then s.migrationDirectory.get (a.srcAddr tcpHdr) = none ∧ s.numBackends ≠ 0
    else (s.migrationDirectory.get (a.srcAddr tcpHdr)).isSome ≠ (s.migrationDirectory.get (a.dstAddr tcpHdr)).isSome

/-- What becomes of a segment that comes after those of the given clients. -/
structure Forwards (s : SoftwareSwitch) (clients : List SocketAddrV4) (a : Arrival) (tcpHdr : TcpHeader) (data : Buffer)
    (s' : SoftwareSwitch) : Prop where
  opened : (tcpHdr.syn && !tcpHdr.ack) = true → ∃ be,
    chosen s.numBackends (clients ++ (a.opens s.rxChecksumOffload).toList) (a.srcAddr tcpHdr) = some be
  client : ∀ be, chosen s.numBackends (clients ++ (a.opens s.rxChecksumOffload).toList) (a.srcAddr tcpHdr) = some be →
    ∃ mac, a.tryQuery be.ip = some mac ∧ s'.transmitted = s.transmitted ++ [s.toBackend a tcpHdr data be mac]
  reply : (tcpHdr.syn && !tcpHdr.ack) = false → ∀ be, chosen s.numBackends clients (a.dstAddr tcpHdr) = some be →
    s'.transmitted = s.transmitted ++ [s.fromSwitch a tcpHdr data]

/-- A segment that does not parse is refused, and one that does is forwarded. -/
structure Handles (s : SoftwareSwitch) (clients : List SocketAddrV4) (a : Arrival) (result : Except Fail Unit)
    (s' : SoftwareSwitch) : Prop where
  refused : ∀ fail, TcpHeader.parse a.ipHdr a.buf s.rxChecksumOffload = some (.error fail) →
    result = .error fail ∧ s' = s
  forwarded : ∀ tcpHdr data, TcpHeader.parse a.ipHdr a.buf s.rxChecksumOffload = some (.ok (tcpHdr, data)) →
    result = .ok () ∧ Forwards s clients a tcpHdr data s'

/-- The directory and the counter are what the clients so far make them. -/
structure Serves (s : SoftwareSwitch) (n : Nat) (offload : Bool) (clients : List SocketAddrV4) : Prop where
  numBackends : s.numBackends = n
  rxChecksumOffload : s.rxChecksumOffload = offload
  beIdx : s.beIdx = clients.length % n
  directory : ∀ c, s.migrationDirectory.get c = chosen n clients c

variable {s : SoftwareSwitch} {n : Nat} {offload : Bool} {clients : List SocketAddrV4} {a : Arrival}
  {tcpHdr : TcpHeader} {data : Buffer}

theorem serves_new (localLinkAddr : MacAddress) (localIpv4Addr : Ipv4Addr) (offload : Bool) (n : Nat) :
    Serves (new localLinkAddr localIpv4Addr offload n) n offload [] :=
  ⟨rfl, rfl, (Nat.zero_mod n).symm, fun c => HashMap.get_empty c⟩

theorem backend_exists (hn : n ≤ backendServers.length) (h0 : n ≠ 0) (i : Nat) :
    ∃ be, backendServers[i % n]? = some be ∧ be ∈ backendServers := by
  have hlt : i % n < backendServers.length := by
    have hmod := Nat.mod_lt i (Nat.pos_of_ne_zero h0)
    omega
  exact ⟨_, List.getElem?_eq_getElem hlt, List.getElem_mem hlt⟩

/-- A client that is new gets the backend whose turn it is, and the others keep theirs. -/
theorem chosen_append {c : SocketAddrV4} (hc : c ∉ clients) (c' : SocketAddrV4) : chosen n (clients ++ [c]) c' =
    if c' = c then backendServers[clients.length % n]? else chosen n clients c' := by
  unfold chosen
  by_cases he : c' = c
  · subst c'
    have hmem : c ∈ clients ++ [c] := List.mem_append_right _ (List.mem_singleton_self c)
    rw [if_pos hmem, if_pos rfl, List.idxOf_append, if_neg hc]
    simp
  · by_cases hc' : c' ∈ clients
    · rw [if_pos (List.mem_append_left _ hc'), if_neg he, if_pos hc', List.idxOf_append, if_pos hc']
    · have hnot : c' ∉ clients ++ [c] := by simp [hc', he]
      rw [if_neg hnot, if_neg he, if_neg hc']

theorem Serves.get_eq_none_iff (h : Serves s n offload clients) (hn : n ≤ backendServers.length)
    (h0 : n ≠ 0) (c : SocketAddrV4) : s.migrationDirectory.get c = none ↔ c ∉ clients := by
  rw [h.directory, chosen]
  split
  next hc =>
    obtain ⟨be, hbe, -⟩ := backend_exists hn h0 (clients.idxOf c)
    simp [hbe, hc]
  next hc => simp [hc]

theorem mem_backendServers_of_get (h : Serves s n offload clients) {c be : SocketAddrV4}
    (hget : s.migrationDirectory.get c = some be) : be ∈ backendServers := by
  rw [h.directory, chosen] at hget
  split at hget
  next => exact List.mem_of_getElem? hget
  next => cases hget

theorem opens_of_parse {b : Bool} (hp : TcpHeader.parse a.ipHdr a.buf offload = some (.ok (tcpHdr, data)))
    (hb : (tcpHdr.syn && !tcpHdr.ack) = b) : a.opens offload = if b then some (a.srcAddr tcpHdr) else none := by
  rw [Arrival.opens, hp]
  simp only [hb]

/-- A SYN from a new client goes to the backend whose turn it is. -/
theorem Serves.receiveSyn (h : Serves s n offload clients) (hn : n ≤ backendServers.length) (h0 : n ≠ 0)
    (hget : s.migrationDirectory.get (a.srcAddr tcpHdr) = none) : ∃ s' be mac,
    s.receiveSyn a tcpHdr data = some s' ∧ Serves s' n offload (clients ++ [a.srcAddr tcpHdr]) ∧
      chosen n (clients ++ [a.srcAddr tcpHdr]) (a.srcAddr tcpHdr) = some be ∧ a.tryQuery be.ip = some mac ∧
      s'.transmitted = s.transmitted ++ [s.toBackend a tcpHdr data be mac] := by
  obtain ⟨be, hbe, hmem⟩ := backend_exists hn h0 clients.length
  obtain ⟨mac, hmac⟩ := Option.isSome_iff_exists.mp (a.cached be hmem)
  have hnew := (h.get_eq_none_iff hn h0 (a.srcAddr tcpHdr)).mp hget
  have hchosen := @chosen_append n clients _ hnew
  have hcount : s.numBackends ≠ 0 := by
    rw [h.numBackends]
    exact h0
  refine ⟨{ s.transmit (s.toBackend a tcpHdr data be mac) with
    migrationDirectory := s.migrationDirectory.insert (a.srcAddr tcpHdr) be
    beIdx := (s.beIdx + 1) % s.numBackends }, be, mac, ?_, ⟨h.numBackends, h.rxChecksumOffload, ?_, fun c => ?_⟩, ?_,
    hmac, rfl⟩
  · have hturn : backendServers[s.beIdx]? = some be := by
      rw [h.beIdx]
      exact hbe
    simp only [SoftwareSwitch.receiveSyn, hturn, Option.bind_eq_bind, Option.bind_some, hmac, hget, Option.isSome_none,
      Bool.false_eq_true, if_false]
    exact if_neg hcount
  · show (s.beIdx + 1) % s.numBackends = (clients ++ [a.srcAddr tcpHdr]).length % n
    rw [h.beIdx, h.numBackends, List.length_append, List.length_singleton, Nat.mod_add_mod]
  · show (s.migrationDirectory.insert (a.srcAddr tcpHdr) be).get c = _
    rw [HashMap.get_insert, hchosen, hbe, h.directory]
  · rw [hchosen, if_pos rfl]
    exact hbe

theorem receiveSyn_eq_none (hbad : ¬(s.migrationDirectory.get (a.srcAddr tcpHdr) = none ∧ s.numBackends ≠ 0)) :
    s.receiveSyn a tcpHdr data = none := by
  unfold SoftwareSwitch.receiveSyn
  cases hbe : backendServers[s.beIdx]? with
  | none => rfl
  | some be =>
    cases hmac : a.tryQuery be.ip with
    | none => simp [hmac]
    | some mac =>
      cases hget : s.migrationDirectory.get (a.srcAddr tcpHdr) with
      | some other => simp
      | none =>
        have hzero : s.numBackends = 0 := by
          by_contra hne
          exact hbad ⟨hget, hne⟩
        simp [hzero, transmit]

/-- Another segment goes from a client to its backend, or from somebody unknown to a client. -/
theorem Serves.receiveOther (h : Serves s n offload clients)
    (hone : (s.migrationDirectory.get (a.srcAddr tcpHdr)).isSome ≠
      (s.migrationDirectory.get (a.dstAddr tcpHdr)).isSome) :
    ∃ s', s.receiveOther a tcpHdr data = some s' ∧ Serves s' n offload clients ∧
      (∀ be, chosen n clients (a.srcAddr tcpHdr) = some be → ∃ mac, a.tryQuery be.ip = some mac ∧
        s'.transmitted = s.transmitted ++ [s.toBackend a tcpHdr data be mac]) ∧
      ∀ be, chosen n clients (a.dstAddr tcpHdr) = some be →
        s'.transmitted = s.transmitted ++ [s.fromSwitch a tcpHdr data] := by
  have hsrc := h.directory (a.srcAddr tcpHdr)
  have hdst := h.directory (a.dstAddr tcpHdr)
  unfold SoftwareSwitch.receiveOther
  cases hs : s.migrationDirectory.get (a.srcAddr tcpHdr) with
  | some target =>
    obtain ⟨mac, hmac⟩ := Option.isSome_iff_exists.mp (a.cached target (mem_backendServers_of_get h hs))
    cases hd : s.migrationDirectory.get (a.dstAddr tcpHdr) with
    | some other =>
      rw [hs, hd] at hone
      exact absurd rfl hone
    | none =>
      rw [hs] at hsrc
      rw [hd] at hdst
      refine ⟨s.transmit (s.toBackend a tcpHdr data target mac), by simp [hmac],
        ⟨h.numBackends, h.rxChecksumOffload, h.beIdx, h.directory⟩, fun be hbe => ?_, fun be hbe => ?_⟩
      · obtain rfl := Option.some.inj (hsrc.trans hbe)
        exact ⟨mac, hmac, rfl⟩
      · cases hdst.trans hbe
  | none =>
    cases hd : s.migrationDirectory.get (a.dstAddr tcpHdr) with
    | none =>
      rw [hs, hd] at hone
      exact absurd rfl hone
    | some other =>
      rw [hs] at hsrc
      refine ⟨s.transmit (s.fromSwitch a tcpHdr data), rfl, ⟨h.numBackends, h.rxChecksumOffload, h.beIdx, h.directory⟩,
        fun be hbe => ?_, fun be hbe => rfl⟩
      cases hsrc.trans hbe

theorem receiveOther_eq_none (hone : (s.migrationDirectory.get (a.srcAddr tcpHdr)).isSome =
    (s.migrationDirectory.get (a.dstAddr tcpHdr)).isSome) : s.receiveOther a tcpHdr data = none := by
  unfold SoftwareSwitch.receiveOther
  cases hs : s.migrationDirectory.get (a.srcAddr tcpHdr) with
  | some target =>
    cases hd : s.migrationDirectory.get (a.dstAddr tcpHdr) with
    | some other => rfl
    | none =>
      rw [hs, hd] at hone
      cases hone
  | none =>
    cases hd : s.migrationDirectory.get (a.dstAddr tcpHdr) with
    | none => rfl
    | some other =>
      rw [hs, hd] at hone
      cases hone

theorem opens_of_error {fail : Fail} (hp : TcpHeader.parse a.ipHdr a.buf offload = some (.error fail)) :
    a.opens offload = none := by
  rw [Arrival.opens, hp]

theorem handles_of_parse {result : Except Fail Unit} {s' : SoftwareSwitch}
    (hp : TcpHeader.parse a.ipHdr a.buf s.rxChecksumOffload = some (.ok (tcpHdr, data))) (hr : result = .ok ())
    (hf : Forwards s clients a tcpHdr data s') : Handles s clients a result s' := by
  refine ⟨fun fail he => ?_, fun tcpHdr' data' hok => ?_⟩
  · cases hp.symm.trans he
  · cases hp.symm.trans hok
    exact ⟨hr, hf⟩

theorem orderly_iff (hp : TcpHeader.parse a.ipHdr a.buf s.rxChecksumOffload = some (.ok (tcpHdr, data))) :
    s.Orderly a ↔ if tcpHdr.syn && !tcpHdr.ack then
        s.migrationDirectory.get (a.srcAddr tcpHdr) = none ∧ s.numBackends ≠ 0
      else (s.migrationDirectory.get (a.srcAddr tcpHdr)).isSome ≠
        (s.migrationDirectory.get (a.dstAddr tcpHdr)).isSome := by
  refine ⟨fun h => h tcpHdr data hp, fun h tcpHdr' data' hok => ?_⟩
  cases hp.symm.trans hok
  exact h

/-- A segment is handled exactly when it is orderly, and panics else. -/
theorem Serves.receive (h : Serves s n offload clients) (hn : n ≤ backendServers.length) (a : Arrival) :
    (s.Orderly a ∧ ∃ result s', s.receive a = some (result, s') ∧
      Serves s' n offload (clients ++ (a.opens offload).toList) ∧ Handles s clients a result s') ∨
    (¬s.Orderly a ∧ s.receive a = none) := by
  obtain ⟨parsed, hp⟩ := a.parses s.rxChecksumOffload
  have hoff := h.rxChecksumOffload
  have hcount := h.numBackends
  cases parsed with
  | error fail =>
    refine .inl ⟨fun tcpHdr data hok => ?_, .error fail, s, ?_, ?_, fun fail' he => ?_, fun tcpHdr data hok => ?_⟩
    · cases hp.symm.trans hok
    · rw [SoftwareSwitch.receive, hp]
      rfl
    · rw [opens_of_error (hoff ▸ hp), Option.toList_none, List.append_nil]
      exact h
    · cases hp.symm.trans he
      exact ⟨rfl, rfl⟩
    · cases hp.symm.trans hok
  | ok segment =>
    obtain ⟨tcpHdr, data⟩ := segment
    have horderly := orderly_iff hp
    cases hsyn : tcpHdr.syn && !tcpHdr.ack with
    | true =>
      have hopens := opens_of_parse (hoff ▸ hp) hsyn
      have hreceive : s.receive a = (s.receiveSyn a tcpHdr data).map fun s' => (.ok (), s') := by
        rw [SoftwareSwitch.receive, hp]
        simp only [Option.bind_eq_bind, Option.bind_some, hsyn, if_true, Option.map_eq_bind]
        rfl
      rw [hsyn, if_pos rfl] at horderly
      by_cases hgood : s.migrationDirectory.get (a.srcAddr tcpHdr) = none ∧ s.numBackends ≠ 0
      · obtain ⟨s', be, mac, hs', hserves, hbe, hmac, hsent⟩ :=
          @Serves.receiveSyn s n offload clients a tcpHdr data h hn (hcount ▸ hgood.2) hgood.1
        rw [hopens]
        refine .inl ⟨horderly.mpr hgood, .ok (), s', by rw [hreceive, hs']; rfl, hserves,
          handles_of_parse hp rfl ⟨fun _ => ⟨be, ?_⟩, fun be' hbe' => ?_, fun hno => ?_⟩⟩
        · rw [hoff, hopens, hcount]
          exact hbe
        · rw [hoff, hopens, hcount] at hbe'
          obtain rfl := Option.some.inj (hbe.symm.trans hbe')
          exact ⟨mac, hmac, hsent⟩
        · cases hsyn.symm.trans hno
      · exact .inr ⟨fun ho => hgood (horderly.mp ho), by rw [hreceive, receiveSyn_eq_none hgood]; rfl⟩
    | false =>
      have hopens := opens_of_parse (hoff ▸ hp) hsyn
      have hreceive : s.receive a = (s.receiveOther a tcpHdr data).map fun s' => (.ok (), s') := by
        rw [SoftwareSwitch.receive, hp]
        simp only [Option.bind_eq_bind, Option.bind_some, hsyn, Bool.false_eq_true, if_false, Option.map_eq_bind]
        rfl
      rw [hsyn, if_neg Bool.false_ne_true] at horderly
      by_cases hgood : (s.migrationDirectory.get (a.srcAddr tcpHdr)).isSome ≠
          (s.migrationDirectory.get (a.dstAddr tcpHdr)).isSome
      · obtain ⟨s', hs', hserves, hclient, hreply⟩ := @Serves.receiveOther s n offload clients a tcpHdr data h hgood
        have hsame : clients ++ (a.opens offload).toList = clients := by
          rw [hopens]
          exact List.append_nil clients
        rw [hsame]
        refine .inl ⟨horderly.mpr hgood, .ok (), s', by rw [hreceive, hs']; rfl, hserves,
          handles_of_parse hp rfl ⟨fun hyes => ?_, fun be hbe => ?_, fun _ be hbe => ?_⟩⟩
        · cases hsyn.symm.trans hyes
        · rw [hoff, hsame, hcount] at hbe
          exact hclient be hbe
        · rw [hcount] at hbe
          exact hreply be hbe
      · exact .inr ⟨fun ho => hgood (horderly.mp ho),
          by rw [hreceive, receiveOther_eq_none (not_not.mp hgood)]; rfl⟩

/-- The clients that have opened a connection, in the order of their SYNs. -/
def clientsOf (offload : Bool) (arrivals : List Arrival) : List SocketAddrV4 :=
  arrivals.filterMap fun a => a.opens offload

theorem Serves.run (h : Serves s n offload clients) (hn : n ≤ backendServers.length) {arrivals : List Arrival}
    {s' : SoftwareSwitch} (hr : Runs.run step s arrivals = some s') :
    Serves s' n offload (clients ++ clientsOf offload arrivals) := by
  induction arrivals generalizing s clients with
  | nil =>
    obtain rfl := Option.some.inj hr
    rw [clientsOf, List.filterMap_nil, List.append_nil]
    exact h
  | cons a arrivals ih =>
    obtain ⟨s₁, ha, hr⟩ := Option.bind_eq_some_iff.mp hr
    rcases h.receive hn a with ⟨-, result, s₂, hs₂, hserves, -⟩ | ⟨-, hnone⟩
    · rw [step, hs₂] at ha
      obtain rfl := Option.some.inj ha
      have hrest := ih hserves hr
      rw [List.append_assoc] at hrest
      have hcons : clientsOf offload (a :: arrivals) = (a.opens offload).toList ++ clientsOf offload arrivals := by
        rw [clientsOf, List.filterMap_cons]
        cases a.opens offload with
        | none => rfl
        | some c => rfl
      rw [hcons]
      exact hrest
    · rw [step, hnone] at ha
      cases ha

/-- A run of the switch goes through exactly when all its segments are orderly, and then each segment of a client goes
to the backend chosen at its SYN and what is sent to a client carries the address of the switch. -/
theorem switch_forwards (localLinkAddr : MacAddress) (localIpv4Addr : Ipv4Addr) (offload : Bool) (n : Nat)
    (hn : n ≤ backendServers.length) (arrivals : List Arrival) :
    ((Runs.run step (new localLinkAddr localIpv4Addr offload n) arrivals).isSome = true ↔
      Runs.Admits step Orderly (new localLinkAddr localIpv4Addr offload n) arrivals) ∧
    ∀ s, Runs.run step (new localLinkAddr localIpv4Addr offload n) arrivals = some s → ∀ a,
      (s.Orderly a ↔ (s.receive a).isSome = true) ∧
      ∀ result s', s.receive a = some (result, s') → Handles s (clientsOf offload arrivals) a result s' := by
  have hnew := serves_new localLinkAddr localIpv4Addr offload n
  refine ⟨?_, fun s hr a => ?_⟩
  · have hstep : ∀ s a, (∃ clients, Serves s n offload clients) →
        (Orderly s a ∧ ∃ s', step s a = some s' ∧ ∃ clients, Serves s' n offload clients) ∨
          (¬Orderly s a ∧ step s a = none) := by
      rintro s a ⟨clients, h⟩
      rcases h.receive hn a with ⟨hgood, result, s', hs', hserves, -⟩ | ⟨hbad, hnone⟩
      · exact .inl ⟨hgood, s', by rw [step, hs']; rfl, _, hserves⟩
      · exact .inr ⟨hbad, by rw [step, hnone]; rfl⟩
    exact Runs.run_isSome_iff hstep ⟨[], hnew⟩
  · have hserves := hnew.run hn hr
    rw [List.nil_append] at hserves
    rcases hserves.receive hn a with ⟨hgood, result, s', hs', -, hhandles⟩ | ⟨hbad, hnone⟩
    · rw [hs']
      refine ⟨⟨fun _ => rfl, fun _ => hgood⟩, fun result' s'' he => ?_⟩
      obtain ⟨rfl, rfl⟩ := Prod.mk.inj (Option.some.inj he)
      exact hhandles
    · rw [hnone]
      refine ⟨⟨fun hgood => absurd hgood hbad, fun hsome => (by cases hsome)⟩, fun result s' he => (by cases he)⟩

/-- The bytes of a header without options, for port 10000. -/
def headerBytes (srcPort : UInt16) (flags : UInt8) : Buffer :=
  Wire.be16 srcPort ++ [0x27, 0x10, 0, 0, 0, 1, 0, 0, 0, 0, 0x50, flags, 0xff, 0xff, 0, 0, 0, 0]

def fromClient (srcPort : UInt16) (flags : UInt8) : Arrival where
  ethHdr := ⟨⟨2, 0, 0, 0, 0, 1⟩, ⟨2, 0, 0, 0, 0, 2⟩, .ipv4⟩
  ipHdr := .new ⟨10, 0, 1, 2⟩ ⟨10, 0, 1, 8⟩ .tcp
  buf := headerBytes srcPort flags
  tryQuery := fun _ => some ⟨2, 0, 0, 0, 0, 9⟩
  fits := by simp [headerBytes, Wire.be16]
  cached := fun _ _ => rfl

def oneBackend : SoftwareSwitch := new ⟨2, 0, 0, 0, 0, 1⟩ ⟨10, 0, 1, 8⟩ true 1

/-- A SYN that comes twice ends the switch, and so does a segment of a stranger. -/
theorem repeatedSyn_panics : (Runs.run step oneBackend [fromClient 7000 0x02]).isSome = true ∧
    (Runs.run step oneBackend [fromClient 7000 0x02, fromClient 7000 0x02]).isNone = true ∧
    (Runs.run step oneBackend [fromClient 7000 0x10]).isNone = true := by
  decide

theorem switch_forwards_sample : (Runs.run step oneBackend [fromClient 7000 0x02, fromClient 7001 0x02,
      fromClient 7000 0x10]).isSome = true ↔
    Runs.Admits step Orderly oneBackend [fromClient 7000 0x02, fromClient 7001 0x02, fromClient 7000 0x10] :=
  (switch_forwards ⟨2, 0, 0, 0, 0, 1⟩ ⟨10, 0, 1, 8⟩ true 1 (by decide) _).1

end SoftwareSwitch

end Capybara
