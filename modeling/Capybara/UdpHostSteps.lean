import Capybara.UdpHost

namespace Capybara

namespace SharedQueueEnds

variable {T : Type} {q : SharedQueueEnds T} {size : Nat} {borrowed : Bool} {items : List T}

/-- An open queue of the given size with the given messages, the oldest first. -/
structure Keeps (q : SharedQueueEnds T) (size : Nat) (borrowed : Bool) (items : List T) : Prop where
  eq : q = ⟨⟨items, size + 1, false⟩, borrowed, items.length, size⟩
  fits : items.length ≤ size

/-- The messages after a push; a full queue first makes room by half. -/
def afterPush (size : Nat) (items : List T) (msg : T) : List T :=
  (if items.length = size then items.drop (size - (size / 2 - 1)) else items) ++ [msg]

theorem mem_afterPush {msg x : T} (h : x ∈ afterPush size items msg) : x ∈ items ∨ x = msg := by
  rcases List.mem_append.mp h with hx | hx
  · left
    split at hx
    next => exact List.mem_of_mem_drop hx
    next => exact hx
  · exact .inr (List.mem_singleton.mp hx)

theorem keeps_sized (size : Nat) : (sized size : SharedQueueEnds T).Keeps size false [] := ⟨rfl, Nat.zero_le _⟩

theorem Keeps.buffer (h : q.Keeps size borrowed items) : q.channel.buffer = items := by rw [h.eq]

theorem Keeps.push (h : q.Keeps size false items) (h2 : 2 ≤ size) (msg : T) :
    ∃ q', q.push msg = some (.ok (), q') ∧ q'.Keeps size false (afterPush size items msg) := by
  obtain ⟨rfl, hfits⟩ := h
  unfold afterPush
  by_cases hfull : items.length = size
  · rw [if_pos hfull]
    refine ⟨_, push_full h2 (Nat.le_succ size) hfull msg, rfl, ?_⟩
    rw [List.length_append, List.length_drop, List.length_singleton]
    omega
  · rw [if_neg hfull]
    refine ⟨_, push_of_room (by omega) hfull msg, rfl, ?_⟩
    rw [List.length_append, List.length_singleton]
    omega

/-- A suspended `pop` keeps a push from making room. -/
theorem Keeps.push_borrowed (h : q.Keeps size true items) (h2 : 2 ≤ size) (msg : T) :
    (items.length = size ∧ q.push msg = none) ∨
      items.length ≠ size ∧ ∃ q', q.push msg = some (.ok (), q') ∧ q'.Keeps size true (items ++ [msg]) := by
  obtain ⟨rfl, hfits⟩ := h
  by_cases hfull : items.length = size
  · exact .inl ⟨hfull, SharedQueueEnds.push_borrowed h2 hfull msg⟩
  · refine .inr ⟨hfull, _, push_of_room (by omega) hfull msg, rfl, ?_⟩
    rw [List.length_append, List.length_singleton]
    omega

theorem Keeps.tryPop_nil (h : q.Keeps size false []) : q.tryPop = some (.ok none, q) := by
  obtain ⟨rfl, -⟩ := h
  rfl

theorem Keeps.tryPop_cons {msg : T} (h : q.Keeps size false (msg :: items)) :
    ∃ q', q.tryPop = some (.ok (some msg), q') ∧ q'.Keeps size false items := by
  obtain ⟨rfl, hfits⟩ := h
  exact ⟨_, rfl, rfl, Nat.le_of_succ_le hfits⟩

theorem Keeps.pop_nil {state : PopState} (h : q.Keeps size (decide (state = .suspended)) [])
    (hstate : state ≠ .finished) : ∃ q', q.pop state = some (none, .suspended, q') ∧ q'.Keeps size true [] := by
  obtain ⟨rfl, hfits⟩ := h
  cases state with
  | created => exact ⟨_, rfl, rfl, hfits⟩
  | suspended => exact ⟨_, rfl, rfl, hfits⟩
  | finished => exact absurd rfl hstate

theorem Keeps.pop_cons {state : PopState} {msg : T} (h : q.Keeps size (decide (state = .suspended)) (msg :: items))
    (hstate : state ≠ .finished) :
    ∃ q', q.pop state = some (some (.ok msg), .finished, q') ∧ q'.Keeps size false items := by
  obtain ⟨rfl, hfits⟩ := h
  cases state with
  | created => exact ⟨_, rfl, rfl, Nat.le_of_succ_le hfits⟩
  | suspended => exact ⟨_, rfl, rfl, Nat.le_of_succ_le hfits⟩
  | finished => exact absurd rfl hstate

end SharedQueueEnds

/-- The socket with the second address is given datagrams for the first one: it is that address or the wildcard with
its port. -/
def SocketAddrV4.Reaches (dst owner : SocketAddrV4) : Prop := owner = dst ∨ owner = ⟨.unspecified, dst.port⟩

def UdpSender.waits : UdpSender → Bool
  | .popping .suspended => true
  | _ => false

/-- Nothing is in the coroutine that was not asked to be sent. -/
def UdpSender.Sound (pushed : List (SharedQueueSlot Buffer)) : UdpSender → Prop
  | .popping state => state ≠ .finished
  | .resolving slot => slot ∈ pushed

/-- The frame of a datagram that was asked to be sent. -/
def SpokenFor (ip : Ipv4Addr) (pushed : List (SharedQueueSlot Buffer)) (bytes : Buffer) : Prop :=
  ∃ slot ∈ pushed, ∃ localLinkAddr remoteLinkAddr checksumOffload, (UdpDatagram.sent ip localLinkAddr
    remoteLinkAddr slot.local_ slot.remote slot.data checksumOffload).frame = some bytes

theorem SpokenFor.mono {ip : Ipv4Addr} {pushed pushed' : List (SharedQueueSlot Buffer)} {bytes : Buffer}
    (h : SpokenFor ip pushed bytes) (hsub : pushed ⊆ pushed') : SpokenFor ip pushed' bytes := by
  obtain ⟨slot, hslot, hframe⟩ := h
  exact ⟨slot, hsub hslot, hframe⟩

namespace UdpHost

/-- The datagrams in the send queue. -/
def unsent (h : UdpHost) : List (SharedQueueSlot Buffer) := h.sendQueue.channel.buffer

/-- What waits to be sent and what has been sent was asked for. -/
structure Sends (ip : Ipv4Addr) (pushed : List (SharedQueueSlot Buffer)) (h : UdpHost) : Prop where
  localIpv4Addr : h.localIpv4Addr = ip
  queue : h.sendQueue.Keeps sendQueueMaxSize h.background.waits h.unsent
  asked : h.unsent ⊆ pushed
  background : h.background.Sound pushed
  transmitted : ∀ bytes ∈ h.transmitted, SpokenFor ip pushed bytes

/-- A frame that the host was given has carried the message here. -/
def Came (P : Buffer → Prop) (owner : SocketAddrV4) (slot : SharedQueueSlot Buffer) : Prop :=
  ∃ bytes, P bytes ∧ UdpDatagram.Carries bytes slot ∧ slot.local_.Reaches owner

theorem Came.mono {P P' : Buffer → Prop} {owner : SocketAddrV4} {slot : SharedQueueSlot Buffer} (h : Came P owner slot)
    (hP : ∀ bytes, P bytes → P' bytes) : Came P' owner slot := by
  obtain ⟨bytes, hbytes, hcame⟩ := h
  exact ⟨bytes, hP bytes hbytes, hcame⟩

/-- Each queue was made for one address and holds what came for it. -/
structure Receives (P : Buffer → Prop) (owners : List SocketAddrV4) (h : UdpHost) : Prop where
  count : h.queues.length = owners.length
  bound : ∀ (addr : SocketAddrV4) (id : Nat), h.bound.get addr = some id → owners[id]? = some addr
  queues : ∀ (id : Nat) (addr : SocketAddrV4), owners[id]? = some addr → ∃ queue items, h.queues[id]? = some queue ∧
    queue.Keeps recvQueueMaxSize false items ∧ ∀ slot ∈ items, Came P addr slot

/-- A step of the side that receives. -/
structure SameSender (h h' : UdpHost) : Prop where
  localIpv4Addr : h'.localIpv4Addr = h.localIpv4Addr
  localLinkAddr : h'.localLinkAddr = h.localLinkAddr
  checksumOffload : h'.checksumOffload = h.checksumOffload
  sendQueue : h'.sendQueue = h.sendQueue
  background : h'.background = h.background
  transmitted : h'.transmitted = h.transmitted

/-- A step of the side that sends. -/
structure SameReceiver (h h' : UdpHost) : Prop where
  localIpv4Addr : h'.localIpv4Addr = h.localIpv4Addr
  localLinkAddr : h'.localLinkAddr = h.localLinkAddr
  checksumOffload : h'.checksumOffload = h.checksumOffload
  ephemeralPorts : h'.ephemeralPorts = h.ephemeralPorts
  sockets : h'.sockets = h.sockets
  bound : h'.bound = h.bound
  queues : h'.queues = h.queues

section

variable {ip : Ipv4Addr} {pushed pushed' : List (SharedQueueSlot Buffer)} {P P' : Buffer → Prop}
  {owners : List SocketAddrV4} {h h' h'' : UdpHost}

theorem SameReceiver.trans (hs : h.SameReceiver h') (hs' : h'.SameReceiver h'') : h.SameReceiver h'' where
  localIpv4Addr := hs'.localIpv4Addr.trans hs.localIpv4Addr
  localLinkAddr := hs'.localLinkAddr.trans hs.localLinkAddr
  checksumOffload := hs'.checksumOffload.trans hs.checksumOffload
  ephemeralPorts := hs'.ephemeralPorts.trans hs.ephemeralPorts
  sockets := hs'.sockets.trans hs.sockets
  bound := hs'.bound.trans hs.bound
  queues := hs'.queues.trans hs.queues

theorem SameReceiver.datagram (hs : h.SameReceiver h') (linkAddr : MacAddress) (slot : SharedQueueSlot Buffer) :
    h'.datagram linkAddr slot = h.datagram linkAddr slot := by
  rw [UdpHost.datagram, UdpHost.datagram, hs.localIpv4Addr, hs.localLinkAddr, hs.checksumOffload]

theorem Sends.congr (hh : h.Sends ip pushed) (hs : h.SameSender h') : h'.Sends ip pushed := by
  refine ⟨hs.localIpv4Addr.trans hh.localIpv4Addr, ?_, ?_, ?_, ?_⟩
  · rw [unsent, hs.sendQueue, hs.background]
    exact hh.queue
  · rw [unsent, hs.sendQueue]
    exact hh.asked
  · rw [hs.background]
    exact hh.background
  · rw [hs.transmitted]
    exact hh.transmitted

theorem Receives.congr (hh : h.Receives P owners) (hs : h.SameReceiver h') : h'.Receives P owners := by
  refine ⟨by rw [hs.queues]; exact hh.count, ?_, ?_⟩
  · rw [hs.bound]
    exact hh.bound
  · rw [hs.queues]
    exact hh.queues

theorem Sends.mono (hh : h.Sends ip pushed) (hsub : pushed ⊆ pushed') : h.Sends ip pushed' := by
  refine ⟨hh.localIpv4Addr, hh.queue, List.Subset.trans hh.asked hsub, ?_, fun bytes hb =>
    (hh.transmitted bytes hb).mono hsub⟩
  have hsound := hh.background
  cases hback : h.background with
  | popping state =>
    rw [hback] at hsound
    exact hsound
  | resolving slot =>
    rw [hback] at hsound
    exact hsub hsound

theorem Receives.mono (hh : h.Receives P owners) (hP : ∀ bytes, P bytes → P' bytes) : h.Receives P' owners := by
  refine ⟨hh.count, hh.bound, fun id addr howner => ?_⟩
  obtain ⟨queue, items, hget, hkeeps, hitems⟩ := hh.queues id addr howner
  exact ⟨queue, items, hget, hkeeps, fun slot hslot => (hitems slot hslot).mono hP⟩

theorem sends_new (setup : UdpSetup) : (new setup).Sends setup.localIpv4Addr [] :=
  ⟨rfl, SharedQueueEnds.keeps_sized _, List.Subset.refl _, fun hstate => (by cases hstate), fun bytes hb =>
    (by cases hb)⟩

theorem receives_new (setup : UdpSetup) (P : Buffer → Prop) : (new setup).Receives P [] :=
  ⟨rfl, fun addr id hget => (by cases hget), fun id addr howner => (by cases howner)⟩

/-- The answer of the ARP peer leads to no datagram that is too long. -/
def Sendable (h : UdpHost) (p : SharedQueueSlot Buffer × Except Fail MacAddress) : Prop :=
  ∀ linkAddr, p.2 = .ok linkAddr → (h.datagram linkAddr p.1).frame.isSome = true

theorem SameReceiver.sendable (hs : h.SameReceiver h') (p : SharedQueueSlot Buffer × Except Fail MacAddress) :
    h'.Sendable p ↔ h.Sendable p := by
  simp only [Sendable, hs.datagram]

/-- The coroutine finds the queue empty and waits, or has the next datagram. -/
theorem Sends.popUnsent (hh : h.Sends ip pushed) {state : PopState} (hstate : state ≠ .finished)
    (hw : h.background.waits = decide (state = .suspended)) :
    (∃ h', h.popUnsent state = some (none, h') ∧ h.unsent = [] ∧ h'.Sends ip pushed ∧ h.SameReceiver h') ∨
      ∃ slot h', h.popUnsent state = some (some slot, h') ∧ h.unsent = slot :: h'.unsent ∧ slot ∈ pushed ∧
        h'.background = .resolving slot ∧ h'.Sends ip pushed ∧ h.SameReceiver h' := by
  have hqueue := hh.queue
  have hasked := hh.asked
  rw [hw] at hqueue
  unfold UdpHost.popUnsent
  cases hitems : h.unsent with
  | nil =>
    left
    rw [hitems] at hqueue
    obtain ⟨q, hpop, hkeeps⟩ := hqueue.pop_nil hstate
    have hbuffer : q.channel.buffer = [] := hkeeps.buffer
    rw [hpop]
    refine ⟨_, rfl, rfl, ⟨hh.localIpv4Addr, ?_, ?_, (by decide : PopState.suspended ≠ .finished), hh.transmitted⟩,
      rfl, rfl, rfl, rfl, rfl, rfl, rfl⟩
    · show q.Keeps sendQueueMaxSize true q.channel.buffer
      rw [hbuffer]
      exact hkeeps
    · show q.channel.buffer ⊆ pushed
      rw [hbuffer]
      exact List.nil_subset _
  | cons slot items =>
    right
    rw [hitems] at hqueue hasked
    obtain ⟨q, hpop, hkeeps⟩ := hqueue.pop_cons hstate
    have hbuffer : q.channel.buffer = items := hkeeps.buffer
    have hslot : slot ∈ pushed := hasked List.mem_cons_self
    rw [hpop]
    refine ⟨slot, _, rfl, by rw [unsent, hbuffer], hslot, rfl, ⟨hh.localIpv4Addr, ?_, ?_, hslot, hh.transmitted⟩,
      rfl, rfl, rfl, rfl, rfl, rfl, rfl⟩
    · show q.Keeps sendQueueMaxSize false q.channel.buffer
      rw [hbuffer]
      exact hkeeps
    · show q.channel.buffer ⊆ pushed
      rw [hbuffer]
      exact fun x hx => hasked (List.mem_cons_of_mem _ hx)

theorem doSend_isSome (h : UdpHost) (linkAddr : MacAddress) (slot : SharedQueueSlot Buffer) :
    (h.doSend linkAddr slot).isSome = (h.datagram linkAddr slot).frame.isSome := by
  unfold UdpHost.doSend
  cases (h.datagram linkAddr slot).frame with
  | none => rfl
  | some bytes => rfl

theorem Sends.doSend (hh : h.Sends ip pushed) {linkAddr : MacAddress} {slot : SharedQueueSlot Buffer}
    (hslot : slot ∈ pushed) (hs : h.doSend linkAddr slot = some h') :
    h'.Sends ip pushed ∧ h.SameReceiver h' ∧ h'.unsent = h.unsent ∧ h'.background = h.background := by
  obtain ⟨bytes, hframe, hs⟩ := Option.bind_eq_some_iff.mp hs
  obtain rfl := Option.some.inj hs
  refine ⟨⟨hh.localIpv4Addr, hh.queue, hh.asked, hh.background, fun bytes' hb => ?_⟩,
    ⟨rfl, rfl, rfl, rfl, rfl, rfl, rfl⟩, rfl, rfl⟩
  rcases List.mem_append.mp hb with hb | hb
  · exact hh.transmitted bytes' hb
  · obtain rfl := List.mem_singleton.mp hb
    rw [datagram, hh.localIpv4Addr] at hframe
    exact ⟨slot, hslot, h.localLinkAddr, linkAddr, h.checksumOffload, hframe⟩

theorem resolve_isSome_iff (h : UdpHost) (slot : SharedQueueSlot Buffer) (answer : Except Fail MacAddress) :
    (h.resolve slot answer).isSome = true ↔ h.Sendable (slot, answer) := by
  cases answer with
  | error e => exact ⟨fun _ linkAddr hok => (by cases hok), fun _ => rfl⟩
  | ok linkAddr =>
    rw [UdpHost.resolve, doSend_isSome]
    refine ⟨fun hframe linkAddr' hok => ?_, fun hsend => hsend linkAddr rfl⟩
    obtain rfl := Except.ok.inj hok
    exact hframe

theorem Sends.resolve (hh : h.Sends ip pushed) {slot : SharedQueueSlot Buffer} {answer : Except Fail MacAddress}
    (hslot : slot ∈ pushed) (hs : h.resolve slot answer = some h') :
    h'.Sends ip pushed ∧ h.SameReceiver h' ∧ h'.unsent = h.unsent ∧ h'.background = h.background := by
  cases answer with
  | error e =>
    obtain rfl := Option.some.inj hs
    exact ⟨hh, ⟨rfl, rfl, rfl, rfl, rfl, rfl, rfl⟩, rfl, rfl⟩
  | ok linkAddr => exact hh.doSend hslot hs

/-- By induction on the answers: each of them goes to the next datagram of the queue. -/
theorem Sends.sendLoop (hh : h.Sends ip pushed) {answers : List (Except Fail MacAddress)} {state : PopState}
    (hstate : state ≠ .finished) (hw : h.background.waits = decide (state = .suspended)) :
    ((sendLoop answers state h).isSome = true ↔ ∀ p ∈ h.unsent.zip answers, h.Sendable p) ∧
      ∀ h', sendLoop answers state h = some h' → h'.Sends ip pushed ∧ h.SameReceiver h' := by
  induction answers generalizing h state with
  | nil =>
    rw [List.zip_nil_right]
    unfold UdpHost.sendLoop
    rcases hh.popUnsent hstate hw with ⟨h₁, hpop, -, hsends, hsame⟩ | ⟨slot, h₁, hpop, -, -, -, hsends, hsame⟩
    · rw [hpop]
      refine ⟨⟨fun _ p hp => (by cases hp), fun _ => rfl⟩, fun h' hs => ?_⟩
      obtain rfl := Option.some.inj hs
      exact ⟨hsends, hsame⟩
    · rw [hpop]
      refine ⟨⟨fun _ p hp => (by cases hp), fun _ => rfl⟩, fun h' hs => ?_⟩
      obtain rfl := Option.some.inj hs
      exact ⟨hsends, hsame⟩
  | cons answer answers ih =>
    unfold UdpHost.sendLoop
    rcases hh.popUnsent hstate hw with ⟨h₁, hpop, hempty, hsends, hsame⟩ |
      ⟨slot, h₁, hpop, hunsent, hslot, hback, hsends, hsame⟩
    · rw [hpop, hempty]
      refine ⟨⟨fun _ p hp => (by cases hp), fun _ => rfl⟩, fun h' hs => ?_⟩
      obtain rfl := Option.some.inj hs
      exact ⟨hsends, hsame⟩
    · rw [hpop, hunsent, List.zip_cons_cons]
      dsimp only
      rw [List.forall_mem_cons, ← hsame.sendable, ← resolve_isSome_iff]
      cases hres : h₁.resolve slot answer with
      | none => exact ⟨⟨fun hsome => (by cases hsome), fun hall => hall.1⟩, fun h' hs => by cases hs⟩
      | some h₂ =>
        obtain ⟨hsends₂, hsame₂, hunsent₂, hback₂⟩ := hsends.resolve hslot hres
        have hw₂ : h₂.background.waits = decide (PopState.created = .suspended) := by
          rw [hback₂, hback]
          rfl
        obtain ⟨hiff, hnext⟩ := ih hsends₂ (by decide) hw₂
        have hsame' := hsame.trans hsame₂
        refine ⟨?_, fun h' hs => ?_⟩
        · rw [Option.bind_some, hiff, hunsent₂]
          simp only [hsame'.sendable, Option.isSome_some, true_and]
        · obtain ⟨hsends', hlast⟩ := hnext h' hs
          exact ⟨hsends', hsame'.trans hlast⟩

/-- The datagrams that wait for their link addresses, the first of which may be looked up already. -/
def unresolved (h : UdpHost) : List (SharedQueueSlot Buffer) :=
  match h.background with
  | .resolving slot => slot :: h.unsent
  | .popping _ => h.unsent

theorem Sends.pollBackground (hh : h.Sends ip pushed) (answers : List (Except Fail MacAddress)) :
    ((h.pollBackground answers).isSome = true ↔ ∀ p ∈ h.unresolved.zip answers, h.Sendable p) ∧
      ∀ h', h.pollBackground answers = some h' → h'.Sends ip pushed ∧ h.SameReceiver h' := by
  have hsound := hh.background
  unfold UdpHost.pollBackground unresolved
  cases hback : h.background with
  | popping state =>
    rw [hback] at hsound
    refine hh.sendLoop hsound ?_
    rw [hback]
    cases state with
    | created => rfl
    | suspended => rfl
    | finished => exact absurd rfl hsound
  | resolving slot =>
    rw [hback] at hsound
    cases answers with
    | nil =>
      rw [List.zip_nil_right]
      refine ⟨⟨fun _ p hp => (by cases hp), fun _ => rfl⟩, fun h' hs => ?_⟩
      obtain rfl := Option.some.inj hs
      exact ⟨hh, ⟨rfl, rfl, rfl, rfl, rfl, rfl, rfl⟩⟩
    | cons answer answers =>
      dsimp only
      rw [List.zip_cons_cons, List.forall_mem_cons, ← resolve_isSome_iff]
      cases hres : h.resolve slot answer with
      | none => exact ⟨⟨fun hsome => (by cases hsome), fun hall => hall.1⟩, fun h' hs => by cases hs⟩
      | some h₁ =>
        obtain ⟨hsends, hsame, hunsent, hback₁⟩ := hh.resolve hsound hres
        have hw : h₁.background.waits = decide (PopState.created = .suspended) := by
          rw [hback₁, hback]
          rfl
        obtain ⟨hiff, hnext⟩ := hsends.sendLoop (by decide) hw
        refine ⟨?_, fun h' hs => ?_⟩
        · rw [Option.bind_some, hiff, hunsent]
          simp only [hsame.sendable, Option.isSome_some, true_and]
        · obtain ⟨hsends', hlast⟩ := hnext h' hs
          exact ⟨hsends', hsame.trans hlast⟩

/-- A push goes through: the datagram is not too long for the link, or the send queue need not make room under a
coroutine that waits on it. -/
def CanPush (h : UdpHost) (qd : QDesc) (data : Buffer) (remote : SocketAddrV4) (linkAddr : Option MacAddress) : Prop :=
  ∀ local_, h.localAddr qd = some local_ →
    match linkAddr with
    | some linkAddr => (h.datagram linkAddr ⟨local_, remote, data⟩).frame.isSome = true
    | none => h.background.waits = true → h.unsent.length ≠ sendQueueMaxSize

theorem localAddr_eq_some_iff {h : UdpHost} {qd : QDesc} {local_ : SocketAddrV4} :
    h.localAddr qd = some local_ ↔ h.sockets.get qd = some (some local_) := by
  unfold localAddr
  cases h.sockets.get qd with
  | none => exact ⟨fun heq => (by cases heq), fun heq => by cases heq⟩
  | some socket => exact ⟨fun heq => congrArg some heq, fun heq => Option.some.inj heq⟩

/-- A datagram whose link address is not known is put into the send queue. -/
theorem Sends.pushUnsent (hh : h.Sends ip pushed) {slot : SharedQueueSlot Buffer} (hslot : slot ∈ pushed) :
    ((h.sendQueue.push slot).isSome = true ↔ (h.background.waits = true → h.unsent.length ≠ sendQueueMaxSize)) ∧
      ∀ r q, h.sendQueue.push slot = some (r, q) →
        ({ h with sendQueue := q }).Sends ip pushed ∧ h.SameReceiver { h with sendQueue := q } := by
  have hqueue := hh.queue
  have hpushed : ∀ q items, q.Keeps sendQueueMaxSize h.background.waits items →
      (∀ slot' ∈ items, slot' ∈ h.unsent ∨ slot' = slot) →
        ({ h with sendQueue := q }).Sends ip pushed ∧ h.SameReceiver { h with sendQueue := q } := by
    intro q items hkeeps hitems
    refine ⟨⟨hh.localIpv4Addr, ?_, ?_, hh.background, hh.transmitted⟩, rfl, rfl, rfl, rfl, rfl, rfl, rfl⟩
    · rw [unsent, hkeeps.buffer]
      exact hkeeps
    · rw [unsent, hkeeps.buffer]
      intro slot' hmem
      rcases hitems slot' hmem with hold | rfl
      · exact hh.asked hold
      · exact hslot
  cases hw : h.background.waits with
  | false =>
    rw [hw] at hqueue hpushed
    obtain ⟨q, hpush, hkeeps⟩ := hqueue.push (by decide) slot
    rw [hpush]
    refine ⟨⟨fun _ hf => (by cases hf), fun _ => rfl⟩, fun r q' hs => ?_⟩
    obtain ⟨-, rfl⟩ := Prod.mk.inj (Option.some.inj hs)
    exact hpushed q _ hkeeps fun slot' hmem => SharedQueueEnds.mem_afterPush hmem
  | true =>
    rw [hw] at hqueue hpushed
    rcases hqueue.push_borrowed (by decide) slot with ⟨hfull, hpush⟩ | ⟨hroom, q, hpush, hkeeps⟩
    · rw [hpush]
      exact ⟨⟨fun hsome => (by cases hsome), fun hcan => absurd hfull (hcan rfl)⟩, fun r q hs => by cases hs⟩
    · rw [hpush]
      refine ⟨⟨fun _ _ => hroom, fun _ => rfl⟩, fun r q' hs => ?_⟩
      obtain ⟨-, rfl⟩ := Prod.mk.inj (Option.some.inj hs)
      refine hpushed q _ hkeeps fun slot' hmem => ?_
      rcases List.mem_append.mp hmem with hold | hnew
      · exact .inl hold
      · exact .inr (List.mem_singleton.mp hnew)

theorem Sends.doPushto (hh : h.Sends ip pushed) (qd : QDesc) (data : Buffer) (remote : SocketAddrV4)
    (linkAddr : Option MacAddress) :
    ((h.doPushto qd data remote linkAddr).isSome = true ↔ h.CanPush qd data remote linkAddr) ∧
      ∀ r h', h.doPushto qd data remote linkAddr = some (r, h') →
        h'.Sends ip (pushed ++ h.asked qd data remote) ∧ h.SameReceiver h' := by
  have hsub : pushed ⊆ pushed ++ h.asked qd data remote := List.subset_append_left _ _
  have hmore := hh.mono hsub
  unfold UdpHost.doPushto
  split
  next local_ hsocket =>
    have haddr : h.localAddr qd = some local_ := localAddr_eq_some_iff.mpr hsocket
    have hslot : ⟨local_, remote, data⟩ ∈ pushed ++ h.asked qd data remote := by
      rw [UdpHost.asked, haddr]
      exact List.mem_append_right _ List.mem_cons_self
    have hcan : h.CanPush qd data remote linkAddr ↔ match linkAddr with
        | some linkAddr => (h.datagram linkAddr ⟨local_, remote, data⟩).frame.isSome = true
        | none => h.background.waits = true → h.unsent.length ≠ sendQueueMaxSize := by
      refine ⟨fun hcan => hcan local_ haddr, fun hcan local' haddr' => ?_⟩
      obtain rfl := Option.some.inj (haddr.symm.trans haddr')
      exact hcan
    rw [hcan]
    cases linkAddr with
    | some linkAddr =>
      dsimp only
      rw [Option.isSome_map, doSend_isSome]
      refine ⟨Iff.rfl, fun r h' hs => ?_⟩
      obtain ⟨h₁, hsend, heq⟩ := Option.map_eq_some_iff.mp hs
      obtain ⟨-, rfl⟩ := Prod.mk.inj heq
      obtain ⟨hsends, hsame, -, -⟩ := hmore.doSend hslot hsend
      exact ⟨hsends, hsame⟩
    | none =>
      obtain ⟨hiff, hnext⟩ := hmore.pushUnsent hslot
      dsimp only
      rw [Option.isSome_map]
      refine ⟨hiff, fun r h' hs => ?_⟩
      obtain ⟨r', hpush, heq⟩ := Option.map_eq_some_iff.mp hs
      obtain ⟨-, rfl⟩ := Prod.mk.inj heq
      exact hnext r'.1 r'.2 hpush
  next hsocket =>
    have haddr : h.localAddr qd = none := by
      rw [Option.eq_none_iff_forall_ne_some]
      intro local_ heq
      exact hsocket local_ (localAddr_eq_some_iff.mp heq)
    refine ⟨⟨fun _ local_ heq => ?_, fun _ => rfl⟩, fun r h' hs => ?_⟩
    · cases haddr.symm.trans heq
    · obtain ⟨-, rfl⟩ := Prod.mk.inj (Option.some.inj hs)
      exact ⟨hmore, rfl, rfl, rfl, rfl, rfl, rfl, rfl⟩

theorem Receives.doSocket (hh : h.Receives P owners) (qd : QDesc) :
    (h.doSocket qd).2.Receives P owners ∧ h.SameSender (h.doSocket qd).2 := by
  unfold UdpHost.doSocket
  split
  next => exact ⟨⟨hh.count, hh.bound, hh.queues⟩, rfl, rfl, rfl, rfl, rfl, rfl⟩
  next => exact ⟨hh, rfl, rfl, rfl, rfl, rfl, rfl⟩

theorem Receives.doClose (hh : h.Receives P owners) (qd : QDesc) :
    (h.doClose qd).2.Receives P owners ∧ h.SameSender (h.doClose qd).2 := by
  unfold UdpHost.doClose
  split
  next => exact ⟨hh, rfl, rfl, rfl, rfl, rfl, rfl⟩
  next socket _ =>
    cases socket with
    | none => exact ⟨⟨hh.count, hh.bound, hh.queues⟩, rfl, rfl, rfl, rfl, rfl, rfl⟩
    | some local_ =>
      dsimp only
      split
      next =>
        refine ⟨⟨hh.count, fun addr id hget => hh.bound addr id ?_, hh.queues⟩, rfl, rfl, rfl, rfl, rfl, rfl⟩
        dsimp only at hget
        rw [HashMap.get_remove] at hget
        split at hget
        next => cases hget
        next => exact hget
      next => exact ⟨⟨hh.count, hh.bound, hh.queues⟩, rfl, rfl, rfl, rfl, rfl, rfl⟩

/-- The queue of a new address is empty. -/
theorem Receives.register (hh : h.Receives P owners) (sockets : HashMap QDesc (Option SocketAddrV4))
    (addr : SocketAddrV4) : ({ h with
      sockets
      bound := h.bound.insert addr h.queues.length
      queues := h.queues ++ [.sized recvQueueMaxSize] } : UdpHost).Receives P (owners ++ [addr]) := by
  refine ⟨?_, fun addr' id hget => ?_, fun id addr' howner => ?_⟩
  · rw [List.length_append, List.length_append, hh.count]
    rfl
  · dsimp only at hget
    rw [HashMap.get_insert] at hget
    split at hget
    next heq =>
      obtain rfl := Option.some.inj hget
      rw [hh.count, List.getElem?_concat_length, heq]
    next =>
      have howner := hh.bound addr' id hget
      rw [List.getElem?_append_left (List.getElem?_eq_some_iff.mp howner).1]
      exact howner
  · dsimp only
    rw [List.getElem?_append] at howner ⊢
    rw [hh.count]
    split at howner
    next hlt =>
      rw [if_pos hlt]
      exact hh.queues id addr' howner
    next hge =>
      rw [if_neg hge]
      obtain ⟨hlt, -⟩ := List.getElem?_eq_some_iff.mp howner
      rw [List.length_singleton] at hlt
      have hzero : id - owners.length = 0 := by omega
      rw [hzero]
      exact ⟨_, [], rfl, SharedQueueEnds.keeps_sized _, fun slot hslot => (by cases hslot)⟩

theorem SameSender.rollbackPort (hs : h.SameSender h') (addr : SocketAddrV4) : h.SameSender (h'.rollbackPort addr) := by
  unfold UdpHost.rollbackPort
  split
  next => exact ⟨hs.localIpv4Addr, hs.localLinkAddr, hs.checksumOffload, hs.sendQueue, hs.background, hs.transmitted⟩
  next => exact hs

theorem Receives.rollbackPort (hh : h.Receives P owners) (addr : SocketAddrV4) :
    (h.rollbackPort addr).Receives P owners := by
  unfold UdpHost.rollbackPort
  split
  next => exact ⟨hh.count, hh.bound, hh.queues⟩
  next => exact hh

theorem Receives.registerAddr (hh : h.Receives P owners) (qd : QDesc) (addr : SocketAddrV4) :
    (∃ new, (h.registerAddr qd addr).2.Receives P (owners ++ new)) ∧ h.SameSender (h.registerAddr qd addr).2 := by
  unfold UdpHost.registerAddr
  split
  next =>
    dsimp only
    split
    next => exact ⟨⟨[addr], hh.register _ addr⟩, rfl, rfl, rfl, rfl, rfl, rfl⟩
    next => exact ⟨⟨[addr], hh.register _ addr⟩, rfl, rfl, rfl, rfl, rfl, rfl⟩
  next => exact ⟨⟨[], by rw [List.append_nil]; exact hh⟩, rfl, rfl, rfl, rfl, rfl, rfl⟩

theorem Receives.doBind (hh : h.Receives P owners) (qd : QDesc) (addr : SocketAddrV4) :
    (∃ new, (h.doBind qd addr).2.Receives P (owners ++ new)) ∧ h.SameSender (h.doBind qd addr).2 := by
  have hsame : (∃ new, h.Receives P (owners ++ new)) ∧ h.SameSender h :=
    ⟨⟨[], by rw [List.append_nil]; exact hh⟩, rfl, rfl, rfl, rfl, rfl, rfl⟩
  unfold UdpHost.doBind
  split
  next => exact hsame
  next =>
    split
    next => exact hsame
    next addr' ports _ =>
      have hports : ({ h with ephemeralPorts := ports } : UdpHost).Receives P owners := ⟨hh.count, hh.bound, hh.queues⟩
      obtain ⟨⟨new, hrec⟩, hsender⟩ := hports.registerAddr qd addr'
      have hsender' : h.SameSender (({ h with ephemeralPorts := ports } : UdpHost).registerAddr qd addr').2 :=
        ⟨hsender.localIpv4Addr, hsender.localLinkAddr, hsender.checksumOffload, hsender.sendQueue, hsender.background,
          hsender.transmitted⟩
      split
      next h₁ heq =>
        rw [heq] at hrec hsender'
        exact ⟨⟨new, hrec⟩, hsender'⟩
      next e h₁ heq =>
        rw [heq] at hrec hsender'
        exact ⟨⟨new, hrec.rollbackPort addr'⟩, hsender'.rollbackPort addr'⟩

theorem recvQueue_reaches {h : UdpHost} {dst : SocketAddrV4} {id : Nat} (hq : h.recvQueue dst = some id) :
    ∃ owner, h.bound.get owner = some id ∧ dst.Reaches owner := by
  unfold UdpHost.recvQueue at hq
  cases hexact : h.bound.get dst with
  | some id' =>
    rw [hexact] at hq
    obtain rfl := Option.some.inj hq
    exact ⟨dst, hexact, .inl rfl⟩
  | none =>
    rw [hexact] at hq
    exact ⟨_, hq, .inr rfl⟩

/-- The queue takes the message, whether it is full or not, and the others stay as they are. -/
theorem Receives.enqueue (hh : h.Receives P owners) {id : Nat} {owner : SocketAddrV4} (howner : owners[id]? = some owner)
    {slot : SharedQueueSlot Buffer} (hcame : Came P owner slot) :
    ∃ queue queue' items, h.queues[id]? = some queue ∧ queue.Keeps recvQueueMaxSize false items ∧
      queue'.Keeps recvQueueMaxSize false (SharedQueueEnds.afterPush recvQueueMaxSize items slot) ∧
      h.enqueue id slot = some { h with queues := h.queues.set id queue' } ∧
      ({ h with queues := h.queues.set id queue' } : UdpHost).Receives P owners := by
  obtain ⟨queue, items, hget, hkeeps, hitems⟩ := hh.queues id owner howner
  obtain ⟨queue', hpush, hkeeps'⟩ := hkeeps.push (by decide) slot
  refine ⟨queue, queue', items, hget, hkeeps, hkeeps', ?_, ?_, hh.bound, fun id' addr' howner' => ?_⟩
  · rw [UdpHost.enqueue, hget, Option.bind_eq_bind, Option.bind_some, hpush]
    rfl
  · rw [List.length_set]
    exact hh.count
  · dsimp only
    by_cases heq : id' = id
    · subst heq
      obtain rfl := Option.some.inj (howner.symm.trans howner')
      rw [List.getElem?_set_self (List.getElem?_eq_some_iff.mp hget).1]
      refine ⟨queue', _, rfl, hkeeps', fun slot' hslot' => ?_⟩
      rcases SharedQueueEnds.mem_afterPush hslot' with hold | rfl
      · exact hitems slot' hold
      · exact hcame
    · rw [List.getElem?_set_ne (Ne.symm heq)]
      exact hh.queues id' addr' howner'

/-- Whatever comes in, the host does not panic. -/
theorem Receives.arrive (hh : h.Receives P owners) {bytes : Buffer} (hP : P bytes) :
    ∃ h', h.arrive bytes = some h' ∧ h'.Receives P owners ∧ h.SameSender h' ∧
      h'.ephemeralPorts = h.ephemeralPorts ∧ h'.sockets = h.sockets ∧ h'.bound = h.bound := by
  have hsame : ∃ h', some h = some h' ∧ h'.Receives P owners ∧ h.SameSender h' ∧
      h'.ephemeralPorts = h.ephemeralPorts ∧ h'.sockets = h.sockets ∧ h'.bound = h.bound :=
    ⟨h, rfl, hh, ⟨rfl, rfl, rfl, rfl, rfl, rfl⟩, rfl, rfl, rfl⟩
  unfold UdpHost.arrive
  cases hpart : udpPart bytes with
  | none => exact hsame
  | some part =>
    obtain ⟨ipv4Hdr, buf⟩ := part
    obtain ⟨r, hparse⟩ := UdpHeader.parse_total ipv4Hdr buf h.checksumOffload
    dsimp only [UdpHost.doReceive]
    rw [hparse]
    cases r with
    | error e => exact hsame
    | ok r =>
      obtain ⟨hdr, data⟩ := r
      rw [Option.bind_eq_bind, Option.bind_some]
      dsimp only
      cases hq : h.recvQueue ⟨ipv4Hdr.dstAddr, hdr.destPort⟩ with
      | none => exact hsame
      | some id =>
        obtain ⟨owner, hbound, hreaches⟩ := recvQueue_reaches hq
        have hcame : Came P owner ⟨⟨ipv4Hdr.dstAddr, hdr.destPort⟩, ⟨ipv4Hdr.srcAddr, hdr.srcPort⟩, data⟩ :=
          ⟨bytes, hP, ⟨ipv4Hdr, buf, h.checksumOffload, hdr, hpart, hparse, rfl, rfl⟩, hreaches⟩
        obtain ⟨_, queue', _, -, -, -, henq, hrec⟩ := hh.enqueue (hh.bound owner id hbound) hcame
        dsimp only
        rw [henq]
        exact ⟨_, rfl, hrec, ⟨rfl, rfl, rfl, rfl, rfl, rfl⟩, rfl, rfl, rfl⟩

/-- A poll takes the oldest message or finds none. -/
theorem Receives.pollPop (hh : h.Receives P owners) {f : UdpPopFuture} {owner : SocketAddrV4}
    (howner : owners[f.recvQueue]? = some owner) :
    (∃ h', h.pollPop f = some (none, h') ∧ h'.Receives P owners ∧ h.SameSender h' ∧
      h'.ephemeralPorts = h.ephemeralPorts ∧ h'.sockets = h.sockets ∧ h'.bound = h.bound) ∨
    ∃ slot h', h.pollPop f = some (some (.ok (slot.remote, slot.data)), h') ∧ Came P owner slot ∧
      h'.Receives P owners ∧ h.SameSender h' ∧ h'.ephemeralPorts = h.ephemeralPorts ∧ h'.sockets = h.sockets ∧
      h'.bound = h.bound := by
  obtain ⟨queue, items, hget, hkeeps, hitems⟩ := hh.queues _ owner howner
  have hset : ∀ (queue' : SharedQueueEnds (SharedQueueSlot Buffer)) items',
      queue'.Keeps recvQueueMaxSize false items' → (∀ slot ∈ items', slot ∈ items) →
        ({ h with queues := h.queues.set f.recvQueue queue' } : UdpHost).Receives P owners := by
    intro queue' items' hkeeps' hsub
    refine ⟨?_, hh.bound, fun id' addr' howner' => ?_⟩
    · rw [List.length_set]
      exact hh.count
    · dsimp only
      by_cases heq : id' = f.recvQueue
      · subst heq
        obtain rfl := Option.some.inj (howner.symm.trans howner')
        rw [List.getElem?_set_self (List.getElem?_eq_some_iff.mp hget).1]
        exact ⟨queue', items', rfl, hkeeps', fun slot hslot => hitems slot (hsub slot hslot)⟩
      · rw [List.getElem?_set_ne (Ne.symm heq)]
        exact hh.queues id' addr' howner'
  unfold UdpHost.pollPop
  rw [hget, Option.bind_eq_bind, Option.bind_some]
  cases items with
  | nil =>
    left
    rw [hkeeps.tryPop_nil]
    exact ⟨_, rfl, hset queue [] hkeeps (fun slot hslot => hslot), ⟨rfl, rfl, rfl, rfl, rfl, rfl⟩, rfl, rfl, rfl⟩
  | cons slot items =>
    right
    obtain ⟨queue', hpop, hkeeps'⟩ := hkeeps.tryPop_cons
    rw [hpop]
    exact ⟨slot, _, rfl, hitems slot List.mem_cons_self,
      hset queue' items hkeeps' (fun slot' hslot' => List.mem_cons_of_mem _ hslot'), ⟨rfl, rfl, rfl, rfl, rfl, rfl⟩,
      rfl, rfl, rfl⟩

end

end UdpHost

end Capybara
