import Capybara.ArpKnowledge
import Capybara.ArpPackets
import Capybara.Lib.Network

namespace Capybara

def ArpQueries.Event.hears : ArpQueries.Event → Bool
  | .receive _ => true
  | _ => false

/-- What a host does by itself. -/
abbrev ArpAct := { e : ArpQueries.Event // e.hears = false }

/-- The hosts of one link; what a host sends can reach every one of them. -/
def arpNetwork (H : Type) : Network H ArpQueries Buffer ArpAct where
  act _ s e := s.step e.1
  hear _ s bytes := s.arrive bytes
  sent s := s.peer.transmitted.map ArpMessage.frame

namespace ArpNetwork

variable {H : Type} [DecidableEq H] (setup : H → ArpHost)

/-- The link address of one of the hosts. -/
def Owns (addr : Ipv4Addr) (m : MacAddress) : Prop :=
  ∃ g, (setup g).localIpv4Addr = addr ∧ (setup g).localLinkAddr = m

def start (h : H) : Option ArpQueries :=
  ArpQueries.start (setup h).clock (setup h).localLinkAddr (setup h).localIpv4Addr (setup h).arpConfig

/-- The hosts after their setup; what a host is told at first is true. -/
structure Starts (n : H → ArpQueries) : Prop where
  start : ∀ h, start setup h = some (n h)
  enabled : ∀ h, (setup h).arpConfig.disableArp = false
  initial : ∀ h, ∀ e ∈ (setup h).arpConfig.initialValues.entries, Owns setup e.1 e.2

/-- A host stands for its own addresses. -/
def Claims (h : H) (_ : ArpQueries) (bytes : Buffer) : Prop :=
  ∃ msg : ArpMessage, bytes = msg.frame ∧ msg.ethernet2Hdr.etherType = .arp ∧
    msg.header.senderHardwareAddr = (setup h).localLinkAddr ∧ msg.header.senderProtocolAddr = (setup h).localIpv4Addr

def HostInv (_ : Buffer → Prop) (h : H) (s : ArpQueries) : Prop := ∃ owners, s.Truthful (Owns setup) (setup h) owners

omit [DecidableEq H] in
theorem honest : (arpNetwork H).Honest (Claims setup) (HostInv setup) where
  mono _ h := h
  sent := by
    rintro P h s bytes ⟨owners, ht⟩ hmem
    obtain ⟨msg, hmsg, rfl⟩ := List.mem_map.mp hmem
    exact ⟨msg, rfl, ht.peer.spoken msg hmsg⟩
  act := by
    rintro P h s ⟨e, hown⟩ s' ⟨owners, ht⟩ hs
    refine ⟨fun _ hm => hm, ht.step (fun header he => ?_) hs⟩
    subst he
    cases hown
  hear := by
    rintro P h s bytes s' ⟨owners, ht⟩ - ⟨g, -, msg, rfl, harp, hlink, haddr⟩ hs
    change s.arrive msg.frame = some s' at hs
    rw [ArpQueries.arrive_frame s harp] at hs
    refine ⟨fun _ hm => hm, ht.step (fun header he => ?_) hs⟩
    obtain rfl := ArpQueries.Event.receive.inj he
    exact ⟨g, haddr.symm, hlink.symm⟩

theorem truthful_start {T : Ipv4Addr → MacAddress → Prop} {host : ArpHost} {s : ArpQueries}
    (hs : ArpQueries.start host.clock host.localLinkAddr host.localIpv4Addr host.arpConfig = some s)
    (hd : host.arpConfig.disableArp = false) (hT : ∀ e ∈ host.arpConfig.initialValues.entries, T e.1 e.2) :
    s.Truthful T host [] := by
  obtain ⟨p, hp, rfl⟩ := Option.map_eq_some_iff.mp hs
  obtain ⟨cache, hcache, hp⟩ := Option.bind_eq_some_iff.mp hp
  obtain rfl := Option.some.inj hp
  have hlive := ArpCache.live_new hcache
  obtain ⟨empty, hempty, hfold⟩ := Option.bind_eq_some_iff.mp hcache
  have hnone : ∀ addr, (⟨empty, host.arpConfig.disableArp⟩ : ArpCache).get addr = none := by
    intro addr
    unfold HashTtlCache.new at hempty
    split at hempty
    next => cases hempty
    next =>
      obtain rfl := Option.some.inj hempty
      simp [ArpCache.get, hd, HashTtlCache.get]
  obtain ⟨henabled, hcached⟩ := ArpCache.get_foldlM hd (fun addr m hm => (by rw [hnone] at hm; cases hm)) hT hfold
  refine ⟨⟨rfl, rfl, hlive, henabled, hcached, rfl, fun addr rx hrx => ?_, fun rx addr hown => ?_,
    fun rx addr m hown => ?_, fun msg hmem => ?_⟩, fun id addr w hw => ?_, fun id addr m hd => ?_⟩
  · simp [ArpPeer.queue] at hrx
  · simp at hown
  · simp at hown
  · cases hmem
  · simp [ArpQueries.WaitsAt] at hw
  · simp at hd

omit [DecidableEq H] in
theorem Starts.inv {n : H → ArpQueries} (h : Starts setup n) : Network.Inv (Claims setup) (HostInv setup) n :=
  fun g => ⟨[], truthful_start (h.start g) (h.enabled g) (h.initial g)⟩

/-- Whatever the hosts have heard, in whatever order and however often, a cached address and an answer to a query is the
link address of the host that has the address, and a message has the addresses of the host that sent it. -/
theorem run_truthful {n n' : H → ArpQueries} {es : List (Network.Event H ArpAct)} (hstart : Starts setup n)
    (hr : Runs.run (arpNetwork H).step n es = some n') (h : H) :
    (∀ addr m, (n' h).peer.cache.get addr = some m → Owns setup addr m) ∧
    (∀ (id : Nat) addr m, (n' h).queries[id]? = some ⟨addr, .done (.ok m)⟩ → Owns setup addr m) ∧
    ∀ msg ∈ (n' h).peer.transmitted, msg.header.senderHardwareAddr = (setup h).localLinkAddr ∧
      msg.header.senderProtocolAddr = (setup h).localIpv4Addr := by
  obtain ⟨owners, ht⟩ := (honest setup).run (hstart.inv setup) hr h
  exact ⟨ht.peer.cached, ht.done, fun msg hmem => (ht.peer.spoken msg hmem).2⟩

/-- Two hosts that do not know each other. -/
def sampleHosts (h : Bool) : ArpHost where
  clock := 0
  localLinkAddr := if h then ⟨2, 0, 0, 0, 0, 2⟩ else ⟨2, 0, 0, 0, 0, 1⟩
  localIpv4Addr := if h then ⟨10, 0, 0, 2⟩ else ⟨10, 0, 0, 1⟩
  arpConfig := ⟨100, 10, 1, ∅, false⟩

def sampleNetwork (h : Bool) : ArpQueries :=
  ⟨⟨0, (sampleHosts h).localLinkAddr, (sampleHosts h).localIpv4Addr, ⟨⟨∅, ∅, some 100, 0⟩, false⟩, ∅, [],
    (sampleHosts h).arpConfig, []⟩, []⟩

theorem sampleNetwork_starts : Starts sampleHosts sampleNetwork where
  start h := by cases h with
    | false => rfl
    | true => rfl
  enabled _ := rfl
  initial h e he := by cases he

/-- The first host asks for the second one, and has sent its request. -/
def sampleQuery : List (Network.Event Bool ArpAct) :=
  [.act false ⟨.query ⟨10, 0, 0, 2⟩, rfl⟩, .act false ⟨.poll 0 fun _ => false, rfl⟩]

/-- The request comes twice, and so do the replies. -/
theorem run_truthful_sample : ∃ n, Runs.run (arpNetwork Bool).step sampleNetwork (sampleQuery ++
      [.deliver false true 0, .deliver false true 0, .deliver true false 1, .deliver true false 0]) = some n ∧
    (n false).peer.cache.get ⟨10, 0, 0, 2⟩ = some ⟨2, 0, 0, 0, 0, 2⟩ ∧
    ∀ addr m, (n false).peer.cache.get addr = some m → Owns sampleHosts addr m := by
  have hget : (Runs.run (arpNetwork Bool).step sampleNetwork (sampleQuery ++
      [.deliver false true 0, .deliver false true 0, .deliver true false 1, .deliver true false 0])).map
        (fun n => (n false).peer.cache.get ⟨10, 0, 0, 2⟩) = some (some ⟨2, 0, 0, 0, 0, 2⟩) := by decide
  obtain ⟨n, hr, hn⟩ := Option.map_eq_some_iff.mp hget
  exact ⟨n, hr, hn, (run_truthful sampleHosts sampleNetwork_starts hr false).1⟩

end ArpNetwork

/-- Everybody at the host who asks for the address, or has asked, gets the link address; only queries that were canceled
before do not. -/
structure ArpQueries.Resolved (s : ArpQueries) (addr : Ipv4Addr) (m : MacAddress) : Prop where
  cached : s.peer.cache.get addr = some m
  created : ∀ (id : Nat) timerFirst, s.queries[id]? = some ⟨addr, .created⟩ →
    ∃ s', s.poll id timerFirst = some s' ∧ s'.queries[id]? = some ⟨addr, .done (.ok m)⟩
  waiting : ∀ id w, s.WaitsAt id addr w → s.peer.channels[w.rx]? ≠ some .canceled →
    ∀ timerFirst : Nat → Bool, (∃ i ≤ w.retries, timerFirst i = false) →
      ∃ s', s.poll id timerFirst = some s' ∧ s'.queries[id]? = some ⟨addr, .done (.ok m)⟩

theorem ArpQueries.Truthful.resolved {T : Ipv4Addr → MacAddress → Prop} {host : ArpHost} {s : ArpQueries}
    {owners : List Ipv4Addr} (h : s.Truthful T host owners) {addr : Ipv4Addr} {m : MacAddress}
    (hget : s.peer.cache.get addr = some m) (hqueue : s.peer.queue addr = []) (hT : ∀ m', T addr m' → m' = m) :
    s.Resolved addr m := by
  refine ⟨hget, fun id timerFirst hq => ?_, fun id w hw hlive timerFirst hfirst => ?_⟩
  · refine ⟨s.put s.peer id addr (.done (.ok m)), ?_, getElem?_put hq⟩
    rw [ArpQueries.poll, hq]
    simp only [hget]
  · have hown := h.waits id addr w hw
    have hlt : w.rx < s.peer.channels.length := h.peer.length ▸ (List.getElem?_eq_some_iff.mp hown).1
    have hsent : s.peer.channels[w.rx]? = some (.sent m) := by
      cases hc : s.peer.channels[w.rx]? with
      | none => exact absurd hlt (Nat.not_lt.mpr (List.getElem?_eq_none_iff.mp hc))
      | some o =>
        cases o with
        | empty =>
          have hin := h.peer.listed w.rx addr hown hc
          rw [hqueue] at hin
          cases hin
        | sent m' => rw [hT m' (h.peer.sent w.rx addr m' hown hc)]
        | canceled => exact absurd hc hlive
    obtain ⟨i, hi, htimer⟩ := hfirst
    have hattempts := @attempts_sent s.peer.clock w.deadline s.peer.arpConfig.requestTimeout w.retries timerFirst m
    rcases hattempts with ⟨more, hready⟩ | ⟨more, -, -, hall⟩
    · refine ⟨s.put (s.peer.transmit (List.replicate (0 + more) (s.peer.request addr))) id addr (.done (.ok m)), ?_,
        getElem?_put hw⟩
      rw [ArpQueries.poll, show s.queries[id]? = _ from hw]
      simp only [ArpQueries.resume, hsent, hready, Option.bind_eq_bind, Option.bind_some]
      rfl
    · rw [hall i hi] at htimer
      cases htimer

/-- A message for the host arrives: whoever waits for the sender is answered, and a request is replied to. -/
theorem ArpQueries.Truthful.arrive {T : Ipv4Addr → MacAddress → Prop} {host : ArpHost} {s : ArpQueries}
    {owners : List Ipv4Addr} (h : s.Truthful T host owners) {msg : ArpMessage}
    (harp : msg.ethernet2Hdr.etherType = .arp) (hT : T msg.header.senderProtocolAddr msg.header.senderHardwareAddr)
    (htarget : msg.header.targetProtocolAddr = host.localIpv4Addr) :
    ∃ s', s.arrive msg.frame = some s' ∧ s'.Truthful T host owners ∧
      s'.peer.cache.get msg.header.senderProtocolAddr = some msg.header.senderHardwareAddr ∧
      s'.peer.queue msg.header.senderProtocolAddr = [] ∧
      (msg.header.operation = .request → s'.peer.transmitted = s.peer.transmitted ++ [s.peer.reply msg.header]) := by
  have hlocal : msg.header.targetProtocolAddr = s.peer.localIpv4Addr := htarget.trans h.peer.ipv4Addr.symm
  obtain ⟨result, p', hp, hpt, hacc, hreply⟩ := h.peer.receive hT
  obtain ⟨hget, hqueue⟩ := hacc (.inr hlocal)
  refine ⟨{ s with peer := p' }, ?_, ⟨hpt, h.waits, h.done⟩, hget, hqueue, fun hop => hreply hop hlocal⟩
  rw [s.arrive_frame harp, ArpQueries.step, hp]
  rfl

namespace ArpNetwork

variable {H : Type} [DecidableEq H] (setup : H → ArpHost)

/-- A request that reaches its target, and the reply that reaches the host which asked, resolve both addresses on both
sides, whatever else has happened before. -/
theorem exchange_resolves {n n' : H → ArpQueries} {es : List (Network.Event H ArpAct)} (hstart : Starts setup n)
    (hr : Runs.run (arpNetwork H).step n es = some n')
    (hdistinct : ∀ g g', (setup g).localIpv4Addr = (setup g').localIpv4Addr → g = g') {h g : H} {k : Nat}
    (hreq : (n' h).peer.transmitted[k]? = some ((n' h).peer.request (setup g).localIpv4Addr)) :
    ∃ n'', Runs.run (arpNetwork H).step n' [.deliver h g k, .deliver g h (n' g).peer.transmitted.length] = some n'' ∧
      (n'' h).Resolved (setup g).localIpv4Addr (setup g).localLinkAddr ∧
      (n'' g).Resolved (setup h).localIpv4Addr (setup h).localLinkAddr := by
  have hinv := (honest setup).run (hstart.inv setup) hr
  have hone : ∀ g m, Owns setup (setup g).localIpv4Addr m → m = (setup g).localLinkAddr := by
    rintro g m ⟨g', haddr, hlink⟩
    rw [← hlink, hdistinct g' g haddr]
  have hself : ∀ g, Owns setup (setup g).localIpv4Addr (setup g).localLinkAddr := fun g => ⟨g, rfl, rfl⟩
  obtain ⟨_, hth⟩ := hinv h
  obtain ⟨_, htg⟩ := hinv g
  -- The request comes to its target.
  have haddr : ((n' h).peer.request (setup g).localIpv4Addr).header.senderProtocolAddr = (setup h).localIpv4Addr :=
    hth.peer.ipv4Addr
  have hlink : ((n' h).peer.request (setup g).localIpv4Addr).header.senderHardwareAddr = (setup h).localLinkAddr :=
    hth.peer.linkAddr
  obtain ⟨sg, harrive, htg', hget, hqueue, hreply⟩ := htg.arrive rfl (by rw [haddr, hlink]; exact hself h) rfl
  rw [haddr] at hget hqueue
  rw [hlink] at hget
  have hfirst : (arpNetwork H).step n' (.deliver h g k) = some (Function.update n' g sg) := by
    have hsent : ((arpNetwork H).sent (n' h))[k]? =
        some ((n' h).peer.request (setup g).localIpv4Addr).frame := by
      show ((n' h).peer.transmitted.map ArpMessage.frame)[k]? = _
      rw [List.getElem?_map, hreq]
      rfl
    simp only [Network.step, hsent]
    exact congrArg (Option.map (Function.update n' g)) harrive
  -- The reply comes to the host that asked.
  obtain ⟨_, hth'⟩ := (honest setup).step hinv hfirst h
  have haddr' : ((n' g).peer.reply ((n' h).peer.request (setup g).localIpv4Addr).header).header.senderProtocolAddr =
      (setup g).localIpv4Addr := htg.peer.ipv4Addr
  have hlink' : ((n' g).peer.reply ((n' h).peer.request (setup g).localIpv4Addr).header).header.senderHardwareAddr =
      (setup g).localLinkAddr := htg.peer.linkAddr
  have harp' : ((n' g).peer.reply ((n' h).peer.request (setup g).localIpv4Addr).header).ethernet2Hdr.etherType = .arp :=
    rfl
  obtain ⟨sh, harrive', hth'', hget', hqueue', -⟩ :=
    hth'.arrive harp' (by rw [haddr', hlink']; exact hself g) hth.peer.ipv4Addr
  rw [haddr'] at hget' hqueue'
  rw [hlink'] at hget'
  have hsecond : (arpNetwork H).step (Function.update n' g sg) (.deliver g h (n' g).peer.transmitted.length) =
      some (Function.update (Function.update n' g sg) h sh) := by
    have hsent : ((arpNetwork H).sent (Function.update n' g sg g))[(n' g).peer.transmitted.length]? =
        some ((n' g).peer.reply ((n' h).peer.request (setup g).localIpv4Addr).header).frame := by
      show ((Function.update n' g sg g).peer.transmitted.map ArpMessage.frame)[_]? = _
      rw [Function.update_self, hreply rfl, List.getElem?_map, List.getElem?_concat_length]
      rfl
    simp only [Network.step, hsent]
    exact congrArg (Option.map (Function.update (Function.update n' g sg) h)) harrive'
  have hres : sh.Resolved (setup g).localIpv4Addr (setup g).localLinkAddr := hth''.resolved hget' hqueue' (hone g)
  refine ⟨_, (Runs.run_cons hfirst).trans (Runs.run_cons hsecond), ?_, ?_⟩
  · rw [Function.update_self]
    exact hres
  · by_cases heq : g = h
    · subst heq
      rw [Function.update_self]
      exact hres
    · rw [Function.update_of_ne heq, Function.update_self]
      exact htg'.resolved hget hqueue (hone h)

theorem exchange_resolves_sample : ∃ n n', Runs.run (arpNetwork Bool).step sampleNetwork sampleQuery = some n ∧
    Runs.run (arpNetwork Bool).step n [.deliver false true 0, .deliver true false 0] = some n' ∧
    (n' false).Resolved ⟨10, 0, 0, 2⟩ ⟨2, 0, 0, 0, 0, 2⟩ ∧ (n' true).Resolved ⟨10, 0, 0, 1⟩ ⟨2, 0, 0, 0, 0, 1⟩ := by
  have hsent : (Runs.run (arpNetwork Bool).step sampleNetwork sampleQuery).map (fun n =>
      (decide ((n false).peer.transmitted[0]? = some ((n false).peer.request ⟨10, 0, 0, 2⟩)),
        (n true).peer.transmitted.length)) = some (true, 0) := by decide
  obtain ⟨n, hr, hn⟩ := Option.map_eq_some_iff.mp hsent
  obtain ⟨hreq, hlen⟩ := Prod.mk.inj hn
  obtain ⟨n', hr', hfalse, htrue⟩ := exchange_resolves sampleHosts sampleNetwork_starts hr (by decide)
    (of_decide_eq_true hreq :
      (n false).peer.transmitted[0]? = some ((n false).peer.request (sampleHosts true).localIpv4Addr))
  rw [hlen] at hr'
  exact ⟨n, n', hr, hr', hfalse, htrue⟩

end ArpNetwork

end Capybara
