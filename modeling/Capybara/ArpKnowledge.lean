import Capybara.ArpQueries

namespace Capybara

theorem ArpCache.get_of_insert {c c' : ArpCache} {ipv4Addr : Ipv4Addr} {linkAddr : MacAddress}
    {old : Option MacAddress}
    (hd : c.disable = false) (h : c.insert ipv4Addr linkAddr = some (old, c')) :
    c'.disable = false ∧ c'.get ipv4Addr = some linkAddr ∧
      ∀ addr m, c'.get addr = some m → addr = ipv4Addr ∧ m = linkAddr ∨ c.get addr = some m := by
  obtain ⟨r, hins, heq⟩ := Option.bind_eq_some_iff.mp h
  obtain ⟨-, rfl⟩ := Prod.mk.inj (Option.some.inj heq)
  unfold HashTtlCache.insert HashTtlCache.insertWithTtl at hins
  split at hins
  next => cases hins
  next =>
    obtain ⟨c₁, hc₁, hr⟩ := Option.bind_eq_some_iff.mp hins
    obtain rfl := Option.some.inj hr
    obtain ⟨c₂, hc₂, -, -, hget⟩ := HashTtlCache.cleanup_spec c.cache
    obtain rfl := Option.some.inj (hc₁.symm.trans hc₂)
    refine ⟨hd, ?_, fun addr m hm => ?_⟩
    · simp [ArpCache.get, hd, HashTtlCache.get]
    · simp only [ArpCache.get, hd, HashTtlCache.get, Bool.false_eq_true, if_false, HashMap.get_insert] at hm ⊢
      split at hm
      next ha => exact .inl ⟨ha, (Option.some.inj hm).symm⟩
      next =>
        rw [hget] at hm
        right
        obtain ⟨r, hr, hv⟩ := Option.map_eq_some_iff.mp hm
        obtain ⟨r', hr', hsome⟩ := Option.bind_eq_some_iff.mp hr
        split at hsome
        next => cases hsome
        next =>
          obtain rfl := Option.some.inj hsome
          rw [hr']
          exact congrArg some hv

theorem ArpCache.get_foldlM {T : Ipv4Addr → MacAddress → Prop} {c c' : ArpCache}
    {es : List (Sigma fun _ : Ipv4Addr => MacAddress)} (hd : c.disable = false)
    (hc : ∀ addr m, c.get addr = some m → T addr m) (hes : ∀ e ∈ es, T e.1 e.2)
    (hf : es.foldlM (fun c e => (ArpCache.insert c e.1 e.2).map fun r => r.2) c = some c') :
    c'.disable = false ∧ ∀ addr m, c'.get addr = some m → T addr m := by
  induction es generalizing c with
  | nil => exact Option.some.inj hf ▸ ⟨hd, hc⟩
  | cons e es ih =>
    rw [List.foldlM_cons] at hf
    obtain ⟨c₁, h₁, hf⟩ := Option.bind_eq_some_iff.mp hf
    obtain ⟨⟨old, c₂⟩, h₂, rfl⟩ := Option.map_eq_some_iff.mp h₁
    obtain ⟨hd₂, -, hget⟩ := ArpCache.get_of_insert hd h₂
    refine ih hd₂ (fun addr m hm => ?_) (fun e' he' => hes e' (List.mem_cons_of_mem e he')) hf
    rcases hget addr m hm with ⟨rfl, rfl⟩ | hold
    · exact hes e List.mem_cons_self
    · exact hc addr m hold

/-- What a host is set up with. -/
structure ArpHost where
  clock : Instant
  localLinkAddr : MacAddress
  localIpv4Addr : Ipv4Addr
  arpConfig : ArpConfig

/-- A peer that knows and tells only what is true of link addresses. `owners` has the address that each channel was
opened for: the channel stands in the queue of that address as long as it is empty, and gets no other answer. -/
structure ArpPeer.Truthful (T : Ipv4Addr → MacAddress → Prop) (host : ArpHost) (p : ArpPeer) (owners : List Ipv4Addr) :
    Prop where
  linkAddr : p.localLinkAddr = host.localLinkAddr
  ipv4Addr : p.localIpv4Addr = host.localIpv4Addr
  live : p.cache.Live p.clock
  enabled : p.cache.disable = false
  cached : ∀ addr m, p.cache.get addr = some m → T addr m
  length : owners.length = p.channels.length
  queued : ∀ addr, ∀ rx ∈ p.queue addr, owners[rx]? = some addr
  listed : ∀ (rx : Nat) addr, owners[rx]? = some addr → p.channels[rx]? = some .empty → rx ∈ p.queue addr
  sent : ∀ (rx : Nat) addr m, owners[rx]? = some addr → p.channels[rx]? = some (.sent m) → T addr m
  spoken : ∀ msg ∈ p.transmitted, msg.ethernet2Hdr.etherType = .arp ∧
    msg.header.senderHardwareAddr = host.localLinkAddr ∧ msg.header.senderProtocolAddr = host.localIpv4Addr

namespace ArpPeer.Truthful

variable {T : Ipv4Addr → MacAddress → Prop} {host : ArpHost} {p : ArpPeer} {owners : List Ipv4Addr}

theorem transmit (h : p.Truthful T host owners) {msgs : List ArpMessage}
    (hm : ∀ msg ∈ msgs, msg.ethernet2Hdr.etherType = .arp ∧
      msg.header.senderHardwareAddr = host.localLinkAddr ∧ msg.header.senderProtocolAddr = host.localIpv4Addr) :
    (p.transmit msgs).Truthful T host owners :=
  { h with spoken := fun msg hmem => (List.mem_append.mp hmem).elim (h.spoken msg) (hm msg) }

theorem request (h : p.Truthful T host owners) (addr : Ipv4Addr) (n : Nat) :
    (p.transmit (List.replicate n (p.request addr))).Truthful T host owners := by
  refine h.transmit fun msg hmem => ?_
  rw [List.eq_of_mem_replicate hmem]
  exact ⟨rfl, h.linkAddr, h.ipv4Addr⟩

/-- All who wait for one address hear the same, and nobody else hears anything. -/
theorem settle (h : p.Truthful T host owners) (addr : Ipv4Addr) {outcome : Oneshot MacAddress} (ho : outcome ≠ .empty)
    (hT : ∀ m, outcome = .sent m → T addr m) :
    ArpPeer.Truthful T host { p with
      waiters := p.waiters.remove addr
      channels := Oneshot.settleAll p.channels (p.queue addr) outcome } owners := by
  have hqueue : ∀ addr', ArpPeer.queue { p with
      waiters := p.waiters.remove addr
      channels := Oneshot.settleAll p.channels (p.queue addr) outcome } addr' =
        if addr' = addr then [] else p.queue addr' := queue_of_remove rfl
  refine { h with length := ?_, queued := fun addr' rx hrx => ?_, listed := fun rx addr' hown hempty => ?_,
                  sent := fun rx addr' m hown hsent => ?_ }
  · show _ = (Oneshot.settleAll p.channels (p.queue addr) outcome).length
    rw [Oneshot.length_settleAll]
    exact h.length
  · rw [hqueue] at hrx
    split at hrx
    next => cases hrx
    next => exact h.queued addr' rx hrx
  · change (Oneshot.settleAll p.channels (p.queue addr) outcome)[rx]? = _ at hempty
    rw [Oneshot.getElem?_settleAll ho] at hempty
    split at hempty
    next hin =>
      obtain ⟨o, -, hsettle⟩ := Option.map_eq_some_iff.mp hempty
      cases o with
      | empty => exact absurd hsettle ho
      | sent m => cases hsettle
      | canceled => cases hsettle
    next hout =>
      have hold := h.listed rx addr' hown hempty
      rw [hqueue, if_neg]
      · exact hold
      · rintro rfl
        exact hout hold
  · change (Oneshot.settleAll p.channels (p.queue addr) outcome)[rx]? = _ at hsent
    rw [Oneshot.getElem?_settleAll ho] at hsent
    split at hsent
    next hin =>
      have haddr := Option.some.inj (hown.symm.trans (h.queued addr rx hin))
      obtain ⟨o, hold, hsettle⟩ := Option.map_eq_some_iff.mp hsent
      cases o with
      | empty => exact haddr ▸ hT m hsettle
      | sent m' => exact h.sent rx addr' m hown (hold.trans (congrArg some hsettle))
      | canceled => cases hsettle
    next => exact h.sent rx addr' m hown hsent

theorem insert (h : p.Truthful T host owners) {addr : Ipv4Addr} {m : MacAddress} (hT : T addr m)
    {old : Option MacAddress} {cache : ArpCache} (hc : p.cache.insert addr m = some (old, cache)) :
    ArpPeer.Truthful T host { p with cache } owners := by
  obtain ⟨hd, -, hget⟩ := ArpCache.get_of_insert h.enabled hc
  obtain ⟨old', cache', hc', hlive⟩ := h.live.insert addr m
  obtain ⟨-, rfl⟩ := Prod.mk.inj (Option.some.inj (hc.symm.trans hc'))
  refine { h with live := hlive, enabled := hd, cached := fun addr' m' hm => ?_ }
  rcases hget addr' m' hm with ⟨rfl, rfl⟩ | hold
  · exact hT
  · exact h.cached addr' m' hold

theorem doDrop (h : p.Truthful T host owners) (addr : Ipv4Addr) : (p.doDrop addr).Truthful T host owners :=
  h.settle addr (by simp) (by simp)

/-- A true insertion goes through, and everybody who waited for the address has its answer. -/
theorem doInsert (h : p.Truthful T host owners) {addr : Ipv4Addr} {m : MacAddress} (hT : T addr m) :
    ∃ old p', p.doInsert addr m = some (old, p') ∧ p'.Truthful T host owners ∧ p'.cache.get addr = some m ∧
      p'.queue addr = [] ∧ p'.transmitted = p.transmitted := by
  obtain ⟨old, cache, hc, -⟩ := h.live.insert addr m
  have hs : ArpPeer.Truthful T host { p with
      waiters := p.waiters.remove addr
      channels := Oneshot.settleAll p.channels (p.queue addr) (.sent m) } owners :=
    h.settle addr (by simp) (fun m' hm' => Oneshot.sent.inj hm' ▸ hT)
  refine ⟨old, { p with
      waiters := p.waiters.remove addr
      channels := Oneshot.settleAll p.channels (p.queue addr) (.sent m)
      cache }, ?_, hs.insert hT hc, (ArpCache.get_of_insert h.enabled hc).2.1, ?_, rfl⟩
  · rw [ArpPeer.doInsert, hc]
    rfl
  · rw [queue_of_remove rfl, if_pos rfl]

/-- A miss opens a channel for the address. -/
theorem wait (h : p.Truthful T host owners) {addr : Ipv4Addr} (hmiss : p.cache.get addr = none) :
    ∃ p', p.doWaitLinkAddr addr = (p.channels.length, p') ∧ p'.Truthful T host (owners ++ [addr]) := by
  obtain ⟨waiters, hwait, hqueue⟩ := doWaitLinkAddr_miss hmiss
  refine ⟨_, hwait, { h with
    length := ?_, queued := fun addr' rx hrx => ?_, listed := fun rx addr' hown hempty => ?_,
    sent := fun rx addr' m hown hsent => ?_ }⟩
  · show (owners ++ [addr]).length = (p.channels ++ [_]).length
    rw [List.length_append, List.length_append, h.length]
    rfl
  · change rx ∈ (waiters.get addr').getD [] at hrx
    rw [hqueue] at hrx
    split at hrx
    next ha =>
      rcases List.mem_append.mp hrx with hold | hnew
      · have hown := h.queued addr rx hold
        rw [List.getElem?_append_left (List.getElem?_eq_some_iff.mp hown).1, ha]
        exact hown
      · rw [List.mem_singleton.mp hnew, ← h.length, ha]
        exact List.getElem?_concat_length
    next =>
      have hold := h.queued addr' rx hrx
      rw [List.getElem?_append_left (List.getElem?_eq_some_iff.mp hold).1]
      exact hold
  · show rx ∈ (waiters.get addr').getD []
    rw [hqueue]
    by_cases hlt : rx < owners.length
    · rw [List.getElem?_append_left hlt] at hown
      change (p.channels ++ [_])[rx]? = _ at hempty
      rw [List.getElem?_append_left (h.length ▸ hlt)] at hempty
      have hold := h.listed rx addr' hown hempty
      split
      next ha => exact List.mem_append_left _ (ha ▸ hold)
      next => exact hold
    · have hrx : rx = owners.length := by
        have hl := (List.getElem?_eq_some_iff.mp hown).1
        rw [List.length_append, List.length_singleton] at hl
        omega
      rw [hrx, List.getElem?_concat_length] at hown
      rw [if_pos (Option.some.inj hown).symm, hrx, h.length]
      exact List.mem_append_right _ (List.mem_singleton.mpr rfl)
  · change (p.channels ++ [_])[rx]? = _ at hsent
    by_cases hlt : rx < owners.length
    · rw [List.getElem?_append_left hlt] at hown
      rw [List.getElem?_append_left (h.length ▸ hlt)] at hsent
      exact h.sent rx addr' m hown hsent
    · have hrx : rx = p.channels.length := by
        have hl := (List.getElem?_eq_some_iff.mp hown).1
        rw [List.length_append, List.length_singleton, h.length] at hl
        have hge := h.length ▸ Nat.le_of_not_lt hlt
        omega
      rw [hrx, List.getElem?_concat_length] at hsent
      cases hsent

theorem background (h : p.Truthful T host owners) :
    ∃ p', p.background = some p' ∧ p'.Truthful T host owners := by
  have hadv : p.cache.cache.advanceClock p.clock = some { p.cache.cache with clock := p.clock } := if_pos h.live.clock
  refine ⟨{ p with cache := { p.cache with cache := { p.cache.cache with clock := p.clock } } }, ?_,
    { h with live := ⟨h.live.ttl, Nat.le_refl _⟩ }⟩
  rw [ArpPeer.background, ArpCache.advanceClock, hadv]
  rfl

/-- The end of `receive`, for a message whose sender is in the cache already. -/
theorem respond (h : p.Truthful T host owners) {header : ArpHeader}
    (hT : T header.senderProtocolAddr header.senderHardwareAddr)
    (hget : p.cache.get header.senderProtocolAddr = some header.senderHardwareAddr)
    (hqueue : p.queue header.senderProtocolAddr = []) :
    ∃ result p', p.respond header = some (result, p') ∧ p'.Truthful T host owners ∧
      p'.cache.get header.senderProtocolAddr = some header.senderHardwareAddr ∧
      p'.queue header.senderProtocolAddr = [] ∧
      (header.operation = .request → p'.transmitted = p.transmitted ++ [p.reply header]) := by
  unfold ArpPeer.respond
  cases header.operation with
  | request =>
    refine ⟨.ok (), p.transmit [p.reply header], rfl, h.transmit fun msg hmem => ?_, hget, hqueue, fun _ => rfl⟩
    rw [List.mem_singleton.mp hmem]
    exact ⟨rfl, h.linkAddr, h.ipv4Addr⟩
  | reply =>
    obtain ⟨old, cache, hc, -⟩ := h.live.insert header.senderProtocolAddr header.senderHardwareAddr
    refine ⟨.ok (), { p with cache }, ?_, h.insert hT hc, (ArpCache.get_of_insert h.enabled hc).2.1, hqueue,
      fun hop => (by cases hop)⟩
    rw [hc]
    rfl

/-- A message with true addresses of its sender leaves only true knowledge behind. One that is accepted answers all who
wait for the sender, and a request for the peer's own address is replied to. -/
theorem receive (h : p.Truthful T host owners) {header : ArpHeader}
    (hT : T header.senderProtocolAddr header.senderHardwareAddr) :
    ∃ result p', p.receive header = some (result, p') ∧ p'.Truthful T host owners ∧
      (p.accepts header → p'.cache.get header.senderProtocolAddr = some header.senderHardwareAddr ∧
        p'.queue header.senderProtocolAddr = []) ∧
      (header.operation = .request → header.targetProtocolAddr = p.localIpv4Addr →
        p'.transmitted = p.transmitted ++ [p.reply header]) := by
  obtain ⟨old, q, hq, hqt, hget, hqueue, hsaid⟩ := h.doInsert hT
  obtain ⟨result, p', hrespond, hpt, hget', hqueue', hreply⟩ := hqt.respond hT hget hqueue
  have haddr : q.localIpv4Addr = p.localIpv4Addr := hqt.ipv4Addr.trans h.ipv4Addr.symm
  have hsame : q.reply header = p.reply header := by
    rw [ArpPeer.reply, ArpPeer.reply, hqt.linkAddr, hqt.ipv4Addr, h.linkAddr, h.ipv4Addr]
  have hreply' : header.operation = .request → p'.transmitted = p.transmitted ++ [p.reply header] := by
    intro hop
    rw [hreply hop, hsaid, hsame]
  unfold ArpPeer.receive
  by_cases hm : (p.cache.get header.senderProtocolAddr).isSome = true
  · by_cases ht : header.targetProtocolAddr = p.localIpv4Addr
    · refine ⟨result, p', ?_, hpt, fun _ => ⟨hget', hqueue'⟩, fun hop _ => hreply' hop⟩
      simp [hm, hq, haddr, ht, hrespond]
    · refine ⟨.ok (), q, ?_, hqt, fun _ => ⟨hget, hqueue⟩, fun _ hlocal => absurd hlocal ht⟩
      simp [hm, hq, haddr, ht]
  · by_cases ht : header.targetProtocolAddr = p.localIpv4Addr
    · refine ⟨result, p', ?_, hpt, fun _ => ⟨hget', hqueue'⟩, fun hop _ => hreply' hop⟩
      simp [hm, hq, ht, hrespond]
    · refine ⟨.error ⟨.EBADMSG, "unrecognized IP address"⟩, p, ?_, h, fun hacc => ?_, fun _ hlocal => absurd hlocal ht⟩
      · simp [hm, ht]
      · exact absurd hacc (not_or.mpr ⟨hm, ht⟩)

end ArpPeer.Truthful

theorem attempts_ready {rx : Oneshot MacAddress} {now deadline requestTimeout retries more : Nat}
    {timerFirst : Nat → Bool} {m : MacAddress}
    (h : attempts rx now requestTimeout timerFirst retries deadline = some (.ready m, more)) : rx = .sent m := by
  have hattempt : ∀ {retries deadline next more},
      attempt rx now timerFirst retries deadline next = some (.ready m, more) →
        rx = .sent m ∨ next = some (.ready m, more) := by
    intro retries deadline next more ha
    unfold attempt withTimeout at ha
    cases rx with
    | empty => grind
    | sent m' => grind
    | canceled => grind
  induction retries generalizing deadline more with
  | zero =>
    rcases hattempt h with hsent | hnext
    · exact hsent
    · cases hnext
  | succ retries ih =>
    rcases hattempt h with hsent | hnext
    · exact hsent
    · obtain ⟨⟨outcome, more'⟩, hlater, heq⟩ := Option.map_eq_some_iff.mp hnext
      obtain ⟨rfl, -⟩ := Prod.mk.inj heq
      exact ih hlater

namespace ArpQueries

/-- The peer is truthful, the queries that wait read channels of their own address, and the others have true answers. -/
structure Truthful (T : Ipv4Addr → MacAddress → Prop) (host : ArpHost) (s : ArpQueries) (owners : List Ipv4Addr) :
    Prop where
  peer : s.peer.Truthful T host owners
  waits : ∀ id addr w, s.WaitsAt id addr w → owners[w.rx]? = some addr
  done : ∀ (id : Nat) addr m, s.queries[id]? = some ⟨addr, .done (.ok m)⟩ → T addr m

namespace Truthful

variable {T : Ipv4Addr → MacAddress → Prop} {host : ArpHost} {s : ArpQueries} {owners : List Ipv4Addr}

theorem put (h : s.Truthful T host owners) {peer : ArpPeer} (hp : peer.Truthful T host owners) (id : Nat)
    {addr : Ipv4Addr} {state : QueryState} (hwaits : ∀ w, state = .waiting w → owners[w.rx]? = some addr)
    (hdone : ∀ m, state = .done (.ok m) → T addr m) : (s.put peer id addr state).Truthful T host owners := by
  refine ⟨hp, fun id' addr' w hw => ?_, fun id' addr' m hd => ?_⟩
  · rcases waitsAt_put hw with ⟨-, rfl, hst⟩ | ⟨-, hold⟩
    · exact hwaits w hst
    · exact h.waits id' addr' w hold
  · change (s.queries.set id ⟨addr, state⟩)[id']? = _ at hd
    rw [List.getElem?_set] at hd
    split at hd
    next =>
      split at hd
      next =>
        obtain ⟨rfl, hst⟩ := ArpQuery.mk.inj (Option.some.inj hd)
        exact hdone m hst
      next => cases hd
    next => exact h.done id' addr' m hd

theorem resume (h : s.Truthful T host owners) {id : Nat} {addr : Ipv4Addr} {w : Waiting} {timerFirst : Nat → Bool}
    {started : Nat} {s' : ArpQueries} (hw : owners[w.rx]? = some addr)
    (hr : s.resume s.peer id addr w timerFirst started = some s') : s'.Truthful T host owners := by
  obtain ⟨rx, hrx, hr⟩ := Option.bind_eq_some_iff.mp hr
  obtain ⟨⟨outcome, more⟩, hattempts, hr⟩ := Option.bind_eq_some_iff.mp hr
  obtain rfl := Option.some.inj hr
  have hpeer := h.peer.request addr (started + more)
  cases outcome with
  | ready m =>
    refine h.put hpeer id (fun w' hw' => (by cases hw')) (fun m' hm' => ?_)
    obtain rfl := Except.ok.inj (QueryState.done.inj hm')
    exact h.peer.sent w.rx addr m hw (attempts_ready hattempts ▸ hrx)
  | pending retries deadline =>
    refine h.put hpeer id (fun w' hw' => ?_) (fun m' hm' => (by cases hm'))
    exact QueryState.waiting.inj hw' ▸ hw
  | timedOut => exact h.put (hpeer.doDrop addr) id (fun w' hw' => (by cases hw')) (fun m' hm' => (by cases hm'))

theorem poll (h : s.Truthful T host owners) {id : Nat} {timerFirst : Nat → Bool} {s' : ArpQueries}
    (hs : s.poll id timerFirst = some s') : ∃ owners', s'.Truthful T host owners' := by
  unfold ArpQueries.poll at hs
  split at hs
  next addr hq =>
    cases hget : s.peer.cache.get addr with
    | some m =>
      rw [hget] at hs
      obtain rfl := Option.some.inj hs
      refine ⟨owners, h.put h.peer id (fun w hw => (by cases hw)) (fun m' hm' => ?_)⟩
      exact Except.ok.inj (QueryState.done.inj hm') ▸ h.peer.cached addr m hget
    | none =>
      obtain ⟨p', hwait, hp'⟩ := h.peer.wait hget
      simp only [hget, hwait] at hs
      have hlen := h.peer.length
      refine ⟨owners ++ [addr], resume (s := ⟨p', s.queries⟩) ⟨hp', fun id' addr' w hw => ?_, h.done⟩ ?_ hs⟩
      · have hold := h.waits id' addr' w hw
        rw [List.getElem?_append_left (List.getElem?_eq_some_iff.mp hold).1]
        exact hold
      · rw [← hlen]
        exact List.getElem?_concat_length
  next addr w hq => exact ⟨owners, h.resume (h.waits id addr w hq) hs⟩
  next => exact ⟨owners, Option.some.inj hs ▸ h⟩

theorem drop (h : s.Truthful T host owners) (id : Nat) : (s.drop id).Truthful T host owners := by
  unfold ArpQueries.drop
  split
  next => exact h.put h.peer id (fun w hw => (by cases hw)) (fun m hm => (by cases hm))
  next => exact h.put h.peer id (fun w hw => (by cases hw)) (fun m hm => (by cases hm))
  next => exact h

theorem query (h : s.Truthful T host owners) (addr : Ipv4Addr) :
    ArpQueries.Truthful T host { s with queries := s.queries ++ [⟨addr, .created⟩] } owners := by
  have hold : ∀ {id : Nat} {addr' : Ipv4Addr} {state : QueryState},
      (s.queries ++ [⟨addr, .created⟩])[id]? = some ⟨addr', state⟩ → state ≠ .created →
        s.queries[id]? = some ⟨addr', state⟩ := by
    intro id addr' state hq hne
    rw [List.getElem?_append] at hq
    split at hq
    next => exact hq
    next =>
      obtain ⟨-, hst⟩ := ArpQuery.mk.inj (List.mem_singleton.mp (List.mem_of_getElem? hq))
      exact absurd hst hne
  exact ⟨h.peer, fun id addr' w hw => h.waits id addr' w (hold hw (by simp)),
    fun id addr' m hd => h.done id addr' m (hold hd (by simp))⟩

/-- Every step keeps a host truthful that hears nothing but the truth. -/
theorem step (h : s.Truthful T host owners) {e : Event} {s' : ArpQueries}
    (hT : ∀ header, e = .receive header → T header.senderProtocolAddr header.senderHardwareAddr)
    (hs : s.step e = some s') : ∃ owners', s'.Truthful T host owners' := by
  cases e with
  | query addr => exact ⟨owners, Option.some.inj hs ▸ h.query addr⟩
  | poll id timerFirst => exact h.poll hs
  | drop id => exact ⟨owners, Option.some.inj hs ▸ h.drop id⟩
  | receive header =>
    obtain ⟨result, p', hp', hpt, -⟩ := h.peer.receive (hT header rfl)
    obtain ⟨r, hr, rfl⟩ := Option.map_eq_some_iff.mp hs
    obtain rfl := Option.some.inj (hr.symm.trans hp')
    exact ⟨owners, hpt, h.waits, h.done⟩
  | advanceClock elapsed =>
    obtain rfl := Option.some.inj hs
    exact ⟨owners, { h.peer with live := ⟨h.peer.live.ttl, Nat.le_trans h.peer.live.clock (Nat.le_add_right _ _)⟩ },
      h.waits, h.done⟩
  | background =>
    obtain ⟨p', hp', hpt⟩ := h.peer.background
    obtain ⟨q, hq, rfl⟩ := Option.map_eq_some_iff.mp hs
    obtain rfl := Option.some.inj (hq.symm.trans hp')
    exact ⟨owners, hpt, h.waits, h.done⟩

end Truthful

end ArpQueries

end Capybara
