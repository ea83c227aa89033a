import Capybara.Frames
import Capybara.Lib.Oneshot
import Capybara.TtlCache

namespace Capybara

inductive ArpOperation
  | request | reply
  deriving DecidableEq, Repr

structure ArpHeader where
  operation : ArpOperation
  senderHardwareAddr : MacAddress
  senderProtocolAddr : Ipv4Addr
  targetHardwareAddr : MacAddress
  targetProtocolAddr : Ipv4Addr
  deriving DecidableEq, Repr

structure ArpMessage where
  ethernet2Hdr : Ethernet2Header
  header : ArpHeader
  deriving DecidableEq, Repr

structure ArpConfig where
  cacheTtl : Duration
  requestTimeout : Duration
  retryCount : Nat
  initialValues : HashMap Ipv4Addr MacAddress
  disableArp : Bool

def MacAddress.broadcast : MacAddress := ⟨255, 255, 255, 255, 255, 255⟩

namespace ArpCache

def insert (c : ArpCache) (ipv4Addr : Ipv4Addr) (linkAddr : MacAddress) : Option (Option MacAddress × ArpCache) := do
  let (old, cache) ← c.cache.insert ipv4Addr linkAddr
  some (old, { c with cache })

def advanceClock (c : ArpCache) (now : Instant) : Option ArpCache := do
  let cache ← c.cache.advanceClock now
  some { c with cache }

def new (now : Instant) (defaultTtl : Option Duration) (values : HashMap Ipv4Addr MacAddress) (disable : Bool) :
    Option ArpCache := do
  let cache ← HashTtlCache.new now defaultTtl
  values.entries.foldlM (fun c e => (c.insert e.1 e.2).map fun r => r.2) ⟨cache, disable⟩

end ArpCache

/-- The senders' ends of `channels` stand in the queues of `waiters`. -/
structure ArpPeer where
  clock : Instant
  localLinkAddr : MacAddress
  localIpv4Addr : Ipv4Addr
  cache : ArpCache
  waiters : HashMap Ipv4Addr (List Nat)
  channels : List (Oneshot MacAddress)
  arpConfig : ArpConfig
  transmitted : List ArpMessage

namespace ArpPeer

def new (clock : Instant) (localLinkAddr : MacAddress) (localIpv4Addr : Ipv4Addr) (arpConfig : ArpConfig) :
    Option ArpPeer := do
  let cache ← ArpCache.new clock (some arpConfig.cacheTtl) arpConfig.initialValues arpConfig.disableArp
  some ⟨clock, localLinkAddr, localIpv4Addr, cache, ∅, [], arpConfig, []⟩

def transmit (p : ArpPeer) (msgs : List ArpMessage) : ArpPeer := { p with transmitted := p.transmitted ++ msgs }

/-- Dropping the queue drops the senders in it. -/
def doDrop (p : ArpPeer) (ipv4Addr : Ipv4Addr) : ArpPeer :=
  { p with
    waiters := p.waiters.remove ipv4Addr
    channels := Oneshot.settleAll p.channels ((p.waiters.get ipv4Addr).getD []) .canceled }

def doInsert (p : ArpPeer) (ipv4Addr : Ipv4Addr) (linkAddr : MacAddress) : Option (Option MacAddress × ArpPeer) := do
  let (old, cache) ← p.cache.insert ipv4Addr linkAddr
  some (old, { p with
    waiters := p.waiters.remove ipv4Addr
    channels := Oneshot.settleAll p.channels ((p.waiters.get ipv4Addr).getD []) (.sent linkAddr)
    cache })

/-- The receiver's end of a new channel. -/
def doWaitLinkAddr (p : ArpPeer) (ipv4Addr : Ipv4Addr) : Nat × ArpPeer :=
  let rx := p.channels.length
  match p.cache.get ipv4Addr with
  | some linkAddr => (rx, { p with channels := p.channels ++ [.sent linkAddr] })
  | none =>
    let waiters := match p.waiters.get ipv4Addr with
      | some waitQueue => p.waiters.insert ipv4Addr (waitQueue ++ [rx])
      | none => p.waiters.insert ipv4Addr [rx]
    (rx, { p with channels := p.channels ++ [.empty], waiters })

/-- One round of the background coroutine. -/
def background (p : ArpPeer) : Option ArpPeer := do
  let cache ← p.cache.advanceClock p.clock
  some { p with cache }

def reply (p : ArpPeer) (header : ArpHeader) : ArpMessage :=
  ⟨⟨header.senderHardwareAddr, p.localLinkAddr, .arp⟩,
    ⟨.reply, p.localLinkAddr, p.localIpv4Addr, header.senderHardwareAddr, header.senderProtocolAddr⟩⟩

/-- The end of `receive`, which looks at the operation. -/
def respond (p : ArpPeer) (header : ArpHeader) : Option (Except Fail Unit × ArpPeer) :=
  match header.operation with
  | .request => some (.ok (), p.transmit [p.reply header])
  | .reply => do
    let (_, cache) ← p.cache.insert header.senderProtocolAddr header.senderHardwareAddr
    some (.ok (), { p with cache })

def receive (p : ArpPeer) (header : ArpHeader) : Option (Except Fail Unit × ArpPeer) := do
  let mergeFlag := (p.cache.get header.senderProtocolAddr).isSome
  let (_, p) ← (if mergeFlag then p.doInsert header.senderProtocolAddr header.senderHardwareAddr
    else some (none, p) : Option (Option MacAddress × ArpPeer))
  if header.targetProtocolAddr ≠ p.localIpv4Addr then
    if mergeFlag then some (.ok (), p) else some (.error ⟨.EBADMSG, "unrecognized IP address"⟩, p)
  else do
    let (_, p) ← (if mergeFlag then some (none, p)
      else p.doInsert header.senderProtocolAddr header.senderHardwareAddr : Option (Option MacAddress × ArpPeer))
    p.respond header

def request (p : ArpPeer) (ipv4Addr : Ipv4Addr) : ArpMessage :=
  ⟨⟨.broadcast, p.localLinkAddr, .arp⟩, ⟨.request, p.localLinkAddr, p.localIpv4Addr, .broadcast, ipv4Addr⟩⟩

end ArpPeer

inductive Select (α : Type)
  | ready (value : α)
  | timeout
  | pending
  deriving DecidableEq, Repr

/-- One poll of `select!`, which looks at the two futures in an order of its own; a channel that was canceled fails the
`expect` on the received value. -/
def withTimeout {α : Type} (rx : Oneshot α) (expired timerFirst : Bool) : Option (Select α) :=
  if expired && timerFirst then some .timeout
  else match rx with
    | .sent value => some (.ready value)
    | .canceled => none
    | .empty => some (if expired then .timeout else .pending)

inductive QueryPoll
  | ready (linkAddr : MacAddress)
  | pending (retries : Nat) (deadline : Instant)
  | timedOut
  deriving DecidableEq, Repr

/-- One pass of the loop body, with `next` for what comes after a timeout. The second part counts requests. -/
def attempt (rx : Oneshot MacAddress) (now : Instant) (timerFirst : Nat → Bool) (retries : Nat) (deadline : Instant)
    (next : Option (QueryPoll × Nat)) : Option (QueryPoll × Nat) :=
  match withTimeout rx (decide (deadline ≤ now)) (timerFirst retries) with
  | none => none
  | some (.ready linkAddr) => some (.ready linkAddr, 0)
  | some .pending => some (.pending retries deadline, 0)
  | some .timeout => next

/-- The loop over the attempts from a poll on: `retries` of them come after the one that waits. -/
def attempts (rx : Oneshot MacAddress) (now : Instant) (requestTimeout : Duration) (timerFirst : Nat → Bool) :
    Nat → Instant → Option (QueryPoll × Nat)
  | 0, deadline => attempt rx now timerFirst 0 deadline (some (.timedOut, 0))
  | retries + 1, deadline => attempt rx now timerFirst (retries + 1) deadline
      ((attempts rx now requestTimeout timerFirst retries (now + requestTimeout)).map fun r => (r.1, r.2 + 1))

structure Waiting where
  retries : Nat
  deadline : Instant
  rx : Nat
  deriving DecidableEq, Repr

inductive QueryState
  | created
  | waiting (w : Waiting)
  | done (result : Except Fail MacAddress)
  | dropped

structure ArpQuery where
  ipv4Addr : Ipv4Addr
  state : QueryState

/-- The peer and the futures of the queries made so far. -/
structure ArpQueries where
  peer : ArpPeer
  queries : List ArpQuery

namespace ArpQueries

inductive Event
  | query (ipv4Addr : Ipv4Addr)
  | poll (id : Nat) (timerFirst : Nat → Bool)
  | drop (id : Nat)
  | receive (header : ArpHeader)
  | advanceClock (elapsed : Duration)
  | background

def put (s : ArpQueries) (peer : ArpPeer) (id : Nat) (ipv4Addr : Ipv4Addr) (state : QueryState) : ArpQueries :=
  ⟨peer, s.queries.set id ⟨ipv4Addr, state⟩⟩

/-- `query` after the loop over the attempts. -/
def conclude (s : ArpQueries) (peer : ArpPeer) (id : Nat) (ipv4Addr : Ipv4Addr) (rx : Nat) : QueryPoll → ArpQueries
  | .ready linkAddr => s.put peer id ipv4Addr (.done (.ok linkAddr))
  | .pending retries deadline => s.put peer id ipv4Addr (.waiting ⟨retries, deadline, rx⟩)
  | .timedOut => s.put (peer.doDrop ipv4Addr) id ipv4Addr (.done (.error ⟨.ETIMEDOUT, "ARP query timeout"⟩))

/-- `query` from the `await` on; `started` counts the requests of this poll so far. -/
def resume (s : ArpQueries) (peer : ArpPeer) (id : Nat) (ipv4Addr : Ipv4Addr) (w : Waiting) (timerFirst : Nat → Bool)
    (started : Nat) : Option ArpQueries := do
  let rx ← peer.channels[w.rx]?
  let (outcome, more) ← attempts rx peer.clock peer.arpConfig.requestTimeout timerFirst w.retries w.deadline
  some (s.conclude (peer.transmit (List.replicate (started + more) (peer.request ipv4Addr))) id ipv4Addr w.rx outcome)

/-- A future that has returned or was dropped is not polled any more. -/
def poll (s : ArpQueries) (id : Nat) (timerFirst : Nat → Bool) : Option ArpQueries :=
  match s.queries[id]? with
  | some ⟨ipv4Addr, .created⟩ =>
    match s.peer.cache.get ipv4Addr with
    | some linkAddr => some (s.put s.peer id ipv4Addr (.done (.ok linkAddr)))
    | none =>
      let (rx, peer) := s.peer.doWaitLinkAddr ipv4Addr
      s.resume peer id ipv4Addr ⟨peer.arpConfig.retryCount, peer.clock + peer.arpConfig.requestTimeout, rx⟩ timerFirst 1
  | some ⟨ipv4Addr, .waiting w⟩ => s.resume s.peer id ipv4Addr w timerFirst 0
  | _ => some s

def drop (s : ArpQueries) (id : Nat) : ArpQueries :=
  match s.queries[id]? with
  | some ⟨ipv4Addr, .created⟩ => s.put s.peer id ipv4Addr .dropped
  | some ⟨ipv4Addr, .waiting _⟩ => s.put s.peer id ipv4Addr .dropped
  | _ => s

def step (s : ArpQueries) : Event → Option ArpQueries
  | .query ipv4Addr => some { s with queries := s.queries ++ [⟨ipv4Addr, .created⟩] }
  | .poll id timerFirst => s.poll id timerFirst
  | .drop id => some (s.drop id)
  | .receive header => (s.peer.receive header).map fun r => { s with peer := r.2 }
  | .advanceClock elapsed => some { s with peer := { s.peer with clock := s.peer.clock + elapsed } }
  | .background => s.peer.background.map fun peer => { s with peer }

def start (clock : Instant) (localLinkAddr : MacAddress) (localIpv4Addr : Ipv4Addr) (arpConfig : ArpConfig) :
    Option ArpQueries :=
  (ArpPeer.new clock localLinkAddr localIpv4Addr arpConfig).map fun peer => ⟨peer, []⟩

end ArpQueries

namespace ArpCache

/-- Insertions go through, and the clock of the cache is not ahead. -/
structure Live (c : ArpCache) (now : Instant) : Prop where
  ttl : c.cache.defaultTtl ≠ some 0
  clock : c.cache.clock ≤ now

theorem Live.insert {c : ArpCache} {now : Instant} (h : c.Live now) (ipv4Addr : Ipv4Addr) (linkAddr : MacAddress) :
    ∃ old c', c.insert ipv4Addr linkAddr = some (old, c') ∧ c'.Live now := by
  obtain ⟨c₁, hc₁, hclock, httl, -⟩ := HashTtlCache.cleanup_spec c.cache
  have hins : c.cache.insert ipv4Addr linkAddr = some ((c₁.map.get ipv4Addr).map fun r => r.value,
      { c₁ with map := c₁.map.insert ipv4Addr ⟨linkAddr, c.cache.defaultTtl.map (c.cache.clock + ·)⟩ }) := by
    rw [HashTtlCache.insert, HashTtlCache.insertWithTtl, if_neg h.ttl, hc₁]
    rfl
  refine ⟨(c₁.map.get ipv4Addr).map fun r => r.value, { c with cache :=
    { c₁ with map := c₁.map.insert ipv4Addr ⟨linkAddr, c.cache.defaultTtl.map (c.cache.clock + ·)⟩ } }, ?_, ?_, ?_⟩
  · rw [ArpCache.insert, hins]
    rfl
  · show c₁.defaultTtl ≠ some 0
    rw [httl]
    exact h.ttl
  · show c₁.clock ≤ now
    rw [hclock]
    exact h.clock

theorem Live.advanceClock {c : ArpCache} {now : Instant} (h : c.Live now) :
    ∃ c', c.advanceClock now = some c' ∧ c'.Live now := by
  have hadv : c.cache.advanceClock now = some { c.cache with clock := now } := if_pos h.clock
  refine ⟨{ c with cache := { c.cache with clock := now } }, ?_, h.ttl, Nat.le_refl now⟩
  rw [ArpCache.advanceClock, hadv]
  rfl

theorem live_foldlM {c c' : ArpCache} {now : Instant} {es : List (Sigma fun _ : Ipv4Addr => MacAddress)}
    (h : c.Live now) (hf : es.foldlM (fun c e => (ArpCache.insert c e.1 e.2).map fun r => r.2) c = some c') :
    c'.Live now := by
  induction es generalizing c with
  | nil => exact Option.some.inj hf ▸ h
  | cons e es ih =>
    obtain ⟨old, c₁, hc₁, hlive⟩ := h.insert e.1 e.2
    rw [List.foldlM_cons, hc₁] at hf
    exact ih hlive hf

theorem live_new {c : ArpCache} {now : Instant} {ttl : Option Duration} {values : HashMap Ipv4Addr MacAddress}
    {disable : Bool} (h : new now ttl values disable = some c) : c.Live now := by
  obtain ⟨cache, hn, hf⟩ := Option.bind_eq_some_iff.mp h
  unfold HashTtlCache.new at hn
  split at hn
  next => cases hn
  next hpos =>
    obtain rfl := Option.some.inj hn
    exact live_foldlM ⟨hpos, Nat.le_refl now⟩ hf

end ArpCache

namespace ArpPeer

variable {p : ArpPeer}

def queue (p : ArpPeer) (ipv4Addr : Ipv4Addr) : List Nat := (p.waiters.get ipv4Addr).getD []

/-- Messages that tell the peer a link address. -/
def accepts (p : ArpPeer) (header : ArpHeader) : Prop :=
  (p.cache.get header.senderProtocolAddr).isSome = true ∨ header.targetProtocolAddr = p.localIpv4Addr

instance (p : ArpPeer) (header : ArpHeader) : Decidable (p.accepts header) := inferInstanceAs (Decidable (_ ∨ _))

/-- The peer after everybody who waits for the address got its answer. -/
structure Answered (p p' : ArpPeer) (ipv4Addr : Ipv4Addr) (linkAddr : MacAddress) : Prop where
  live : p'.cache.Live p'.clock
  clock : p'.clock = p.clock
  arpConfig : p'.arpConfig = p.arpConfig
  waiters : p'.waiters = p.waiters.remove ipv4Addr
  channels : p'.channels = Oneshot.settleAll p.channels (p.queue ipv4Addr) (.sent linkAddr)

theorem doInsert_spec (h : p.cache.Live p.clock) (ipv4Addr : Ipv4Addr) (linkAddr : MacAddress) :
    ∃ old p', p.doInsert ipv4Addr linkAddr = some (old, p') ∧ Answered p p' ipv4Addr linkAddr ∧
      p'.localIpv4Addr = p.localIpv4Addr := by
  obtain ⟨old, c', hc, hlive⟩ := h.insert ipv4Addr linkAddr
  refine ⟨old, { p with
    waiters := p.waiters.remove ipv4Addr
    channels := Oneshot.settleAll p.channels (p.queue ipv4Addr) (.sent linkAddr)
    cache := c' }, ?_, ⟨hlive, rfl, rfl, rfl, rfl⟩, rfl⟩
  rw [doInsert, hc]
  rfl

theorem respond_spec {q : ArpPeer} {header : ArpHeader}
    (h : Answered p q header.senderProtocolAddr header.senderHardwareAddr) :
    ∃ result p', q.respond header = some (result, p') ∧
      Answered p p' header.senderProtocolAddr header.senderHardwareAddr := by
  unfold respond
  cases header.operation with
  | request => exact ⟨.ok (), q.transmit [q.reply header], rfl, h.live, h.clock, h.arpConfig, h.waiters, h.channels⟩
  | reply =>
    obtain ⟨old, cache, hc, hlive⟩ := h.live.insert header.senderProtocolAddr header.senderHardwareAddr
    refine ⟨.ok (), { q with cache }, ?_, hlive, h.clock, h.arpConfig, h.waiters, h.channels⟩
    rw [hc]
    rfl

/-- An accepted message answers those who wait for its sender, and another one changes nothing. -/
theorem receive_spec (h : p.cache.Live p.clock) (header : ArpHeader) :
    ∃ result p', p.receive header = some (result, p') ∧
      (p.accepts header → Answered p p' header.senderProtocolAddr header.senderHardwareAddr) ∧
      (¬p.accepts header → p' = p) := by
  obtain ⟨old, q, hq, hans, hlocal⟩ := doInsert_spec h header.senderProtocolAddr header.senderHardwareAddr
  obtain ⟨result, p', hrespond, hans'⟩ := respond_spec hans
  unfold receive
  by_cases hm : (p.cache.get header.senderProtocolAddr).isSome = true
  · have hacc : p.accepts header := .inl hm
    by_cases ht : header.targetProtocolAddr = p.localIpv4Addr
    · refine ⟨result, p', ?_, fun _ => hans', fun hn => absurd hacc hn⟩
      simp [hm, hq, hlocal, ht, hrespond]
    · refine ⟨.ok (), q, ?_, fun _ => hans, fun hn => absurd hacc hn⟩
      simp [hm, hq, hlocal, ht]
  · by_cases ht : header.targetProtocolAddr = p.localIpv4Addr
    · refine ⟨result, p', ?_, fun _ => hans', fun hn => absurd (.inr ht) hn⟩
      simp [hm, hq, ht, hrespond]
    · refine ⟨.error ⟨.EBADMSG, "unrecognized IP address"⟩, p, ?_, fun hacc => absurd hacc (not_or.mpr ⟨hm, ht⟩),
        fun _ => rfl⟩
      simp [hm, ht]

theorem queue_of_remove {p' : ArpPeer} {ipv4Addr : Ipv4Addr} (h : p'.waiters = p.waiters.remove ipv4Addr)
    (ipv4Addr' : Ipv4Addr) : p'.queue ipv4Addr' = if ipv4Addr' = ipv4Addr then [] else p.queue ipv4Addr' := by
  unfold queue
  rw [h, HashMap.get_remove]
  split
  next => rfl
  next => rfl

/-- A miss registers a sender at the end of the queue. -/
theorem doWaitLinkAddr_miss {ipv4Addr : Ipv4Addr} (h : p.cache.get ipv4Addr = none) :
    ∃ waiters, p.doWaitLinkAddr ipv4Addr =
        (p.channels.length, { p with channels := p.channels ++ [.empty], waiters }) ∧
      ∀ ipv4Addr', (waiters.get ipv4Addr').getD [] =
        if ipv4Addr' = ipv4Addr then p.queue ipv4Addr ++ [p.channels.length] else p.queue ipv4Addr' := by
  unfold doWaitLinkAddr queue
  rw [h]
  refine ⟨_, rfl, fun ipv4Addr' => ?_⟩
  cases hq : p.waiters.get ipv4Addr with
  | none =>
    show ((p.waiters.insert ipv4Addr [p.channels.length]).get ipv4Addr').getD [] = _
    rw [HashMap.get_insert]
    split
    next => rfl
    next => rfl
  | some waitQueue =>
    show ((p.waiters.insert ipv4Addr (waitQueue ++ [p.channels.length])).get ipv4Addr').getD [] = _
    rw [HashMap.get_insert]
    split
    next => rfl
    next => rfl

end ArpPeer

/-- With no more attempts to come, or with a timeout of zero for them, the timer that runs out is the last one. -/
def LastTimer (requestTimeout now retries deadline : Nat) : Prop :=
  deadline ≤ now ∧ (retries = 0 ∨ requestTimeout = 0)

instance (requestTimeout now retries deadline : Nat) : Decidable (LastTimer requestTimeout now retries deadline) :=
  inferInstanceAs (Decidable (_ ∧ _))

section attempts

variable {now deadline requestTimeout retries : Nat} {timerFirst : Nat → Bool}

theorem lastTimer_succ (h : deadline ≤ now) :
    LastTimer requestTimeout now retries (now + requestTimeout) ↔
      LastTimer requestTimeout now (retries + 1) deadline := by
  unfold LastTimer
  omega

/-- A value that has been sent is taken, except where every timer, to the last one, comes first. -/
theorem attempts_sent (linkAddr : MacAddress) :
    (∃ more, attempts (.sent linkAddr) now requestTimeout timerFirst retries deadline = some (.ready linkAddr, more)) ∨
      ∃ more, attempts (.sent linkAddr) now requestTimeout timerFirst retries deadline = some (.timedOut, more) ∧
        LastTimer requestTimeout now retries deadline ∧ ∀ i ≤ retries, timerFirst i = true := by
  induction retries generalizing deadline with
  | zero =>
    by_cases hx : deadline ≤ now ∧ timerFirst 0 = true
    · refine .inr ⟨0, ?_, ⟨hx.1, .inl rfl⟩, fun i hi => ?_⟩
      · simp [attempts, attempt, withTimeout, hx]
      · rw [Nat.le_zero.mp hi]
        exact hx.2
    · refine .inl ⟨0, ?_⟩
      simp [attempts, attempt, withTimeout, hx]
  | succ retries ih =>
    by_cases hx : deadline ≤ now ∧ timerFirst (retries + 1) = true
    · have hstep : attempts (.sent linkAddr) now requestTimeout timerFirst (retries + 1) deadline =
          (attempts (.sent linkAddr) now requestTimeout timerFirst retries (now + requestTimeout)).map
            fun r => (r.1, r.2 + 1) := by
        simp [attempts, attempt, withTimeout, hx]
      rcases @ih (now + requestTimeout) with ⟨more, hr⟩ | ⟨more, hr, hlast, hall⟩
      · exact .inl ⟨more + 1, by rw [hstep, hr]; rfl⟩
      · refine .inr ⟨more + 1, by rw [hstep, hr]; rfl, (lastTimer_succ hx.1).mp hlast, fun i hi => ?_⟩
        rcases Nat.le_succ_iff.mp hi with hle | rfl
        · exact hall i hle
        · exact hx.2
    · refine .inl ⟨0, ?_⟩
      simp [attempts, attempt, withTimeout, hx]

/-- With nothing sent the last timer ends the loop, and a timer before it starts the next attempt. -/
theorem attempts_empty : ∃ more, attempts .empty now requestTimeout timerFirst retries deadline =
    some (if LastTimer requestTimeout now retries deadline then .timedOut
      else if deadline ≤ now then .pending (retries - 1) (now + requestTimeout)
      else .pending retries deadline, more) := by
  induction retries generalizing deadline with
  | zero =>
    refine ⟨0, ?_⟩
    by_cases hx : deadline ≤ now
    · simp [attempts, attempt, withTimeout, LastTimer, hx]
    · simp [attempts, attempt, withTimeout, LastTimer, hx]
  | succ retries ih =>
    by_cases hx : deadline ≤ now
    · obtain ⟨more, hr⟩ := @ih (now + requestTimeout)
      have hstep : attempts .empty now requestTimeout timerFirst (retries + 1) deadline =
          (attempts .empty now requestTimeout timerFirst retries (now + requestTimeout)).map
            fun r => (r.1, r.2 + 1) := by
        simp [attempts, attempt, withTimeout, hx]
      refine ⟨more + 1, ?_⟩
      rw [hstep, hr, if_pos hx]
      by_cases hlast : LastTimer requestTimeout now (retries + 1) deadline
      · rw [if_pos hlast, if_pos ((lastTimer_succ hx).mpr hlast)]
        rfl
      · have hlater : ¬now + requestTimeout ≤ now := by
          unfold LastTimer at hlast
          omega
        rw [if_neg hlast, if_neg (fun h => hlast ((lastTimer_succ hx).mp h)), if_neg hlater]
        rfl
    · refine ⟨0, ?_⟩
      have hlast : ¬LastTimer requestTimeout now (retries + 1) deadline := fun h => hx h.1
      rw [if_neg hlast, if_neg hx]
      simp [attempts, attempt, withTimeout, hx]

end attempts

end Capybara
