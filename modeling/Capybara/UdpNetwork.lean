import Capybara.Lib.Network
import Capybara.UdpHostSteps

namespace Capybara

open Runs

namespace UdpNode

/-- What the queues and the futures of a host hold, and what the application was given, came in frames that were sent. -/
structure Sound (ip : Ipv4Addr) (P : Buffer → Prop) (n : UdpNode) : Prop where
  sends : n.host.Sends ip n.pushed
  receives : ∃ owners, n.host.Receives P owners ∧
    ∀ local_ f, (local_, some f) ∈ n.pops → owners[f.recvQueue]? = some local_
  popped : ∀ slot ∈ n.popped, ∃ local_, UdpHost.Came P slot.local_ ⟨local_, slot.remote, slot.data⟩

def Event.hears : Event → Bool
  | .arrive _ => true
  | _ => false

/-- The calls that do not panic. -/
def CanStep (n : UdpNode) : Event → Prop
  | .doPushto qd data remote linkAddr => n.host.CanPush qd data remote linkAddr
  | .pollBackground answers => ∀ p ∈ n.host.unresolved.zip answers, n.host.Sendable p
  | .doPop qd => ∃ local_, n.host.localAddr qd = some local_ ∧ (n.host.bound.get local_).isSome = true
  | _ => True

section

variable {ip : Ipv4Addr} {P P' : Buffer → Prop} {n n' : UdpNode} {host : UdpHost}

theorem sound_new (setup : UdpSetup) (P : Buffer → Prop) : (new setup).Sound setup.localIpv4Addr P where
  sends := UdpHost.sends_new setup
  receives := ⟨[], UdpHost.receives_new setup P, fun _ _ hmem => by cases hmem⟩
  popped _ hslot := by cases hslot

theorem Sound.mono (h : n.Sound ip P) (hP : ∀ bytes, P bytes → P' bytes) : n.Sound ip P' where
  sends := h.sends
  receives := by
    obtain ⟨owners, hreceives, hpops⟩ := h.receives
    exact ⟨owners, hreceives.mono hP, hpops⟩
  popped slot hslot := by
    obtain ⟨local_, hcame⟩ := h.popped slot hslot
    exact ⟨local_, hcame.mono hP⟩

/-- A step of the side that sends. -/
theorem Sound.sender (h : n.Sound ip P) {pushed : List (SharedQueueSlot Buffer)} (hsends : host.Sends ip pushed)
    (hsame : n.host.SameReceiver host) : ({ n with host, pushed } : UdpNode).Sound ip P where
  sends := hsends
  receives := by
    obtain ⟨owners, hreceives, hpops⟩ := h.receives
    exact ⟨owners, hreceives.congr hsame, hpops⟩
  popped := h.popped

/-- A step of the side that receives, in which new queues may come. -/
theorem Sound.receiver (h : n.Sound ip P) (hsame : n.host.SameSender host)
    (hnext : ∀ owners, n.host.Receives P owners → ∃ new, host.Receives P (owners ++ new)) :
    ({ n with host } : UdpNode).Sound ip P where
  sends := h.sends.congr hsame
  receives := by
    obtain ⟨owners, hreceives, hpops⟩ := h.receives
    obtain ⟨new, hreceives'⟩ := hnext owners hreceives
    refine ⟨owners ++ new, hreceives', fun local_ f hmem => ?_⟩
    have howner := hpops local_ f hmem
    rw [List.getElem?_append_left (List.getElem?_eq_some_iff.mp howner).1]
    exact howner
  popped := h.popped

theorem Sound.receiver_same (h : n.Sound ip P) (hsame : n.host.SameSender host)
    (hnext : ∀ owners, n.host.Receives P owners → host.Receives P owners) : ({ n with host } : UdpNode).Sound ip P :=
  h.receiver hsame fun owners hreceives => ⟨[], by rw [List.append_nil]; exact hnext owners hreceives⟩

theorem Sound.doPop (h : n.Sound ip P) (qd : QDesc) :
    ((n.doPop qd).isSome = true ↔ n.CanStep (.doPop qd)) ∧
      ∀ n', n.doPop qd = some n' → n'.Sound ip P ∧ n'.pushed = n.pushed := by
  unfold UdpNode.doPop CanStep
  cases haddr : n.host.localAddr qd with
  | none =>
    refine ⟨⟨fun hsome => (by cases hsome), fun hcan => ?_⟩, fun n' hs => by cases hs⟩
    obtain ⟨_, heq, -⟩ := hcan
    cases haddr.symm.trans heq
  | some local_ =>
    have hsocket := UdpHost.localAddr_eq_some_iff.mp haddr
    have hpop : n.host.doPop qd = (n.host.bound.get local_).map (UdpPopFuture.mk qd) := by
      rw [UdpHost.doPop, hsocket]
    rw [Option.bind_eq_bind, Option.bind_some, hpop]
    cases hbound : n.host.bound.get local_ with
    | none =>
      refine ⟨⟨fun hsome => (by cases hsome), fun hcan => ?_⟩, fun n' hs => by cases hs⟩
      obtain ⟨local', heq, hsome⟩ := hcan
      obtain rfl := Option.some.inj (haddr.symm.trans heq)
      rw [hbound] at hsome
      cases hsome
    | some id =>
      refine ⟨⟨fun _ => ⟨local_, haddr, by rw [hbound]; rfl⟩, fun _ => rfl⟩, fun n' hs => ?_⟩
      obtain rfl := Option.some.inj hs
      obtain ⟨owners, hreceives, hpops⟩ := h.receives
      refine ⟨⟨h.sends, ⟨owners, hreceives, fun local' f hmem => ?_⟩, h.popped⟩, rfl⟩
      rcases List.mem_append.mp hmem with hmem | hmem
      · exact hpops local' f hmem
      · obtain ⟨rfl, hf⟩ := Prod.mk.inj (List.mem_singleton.mp hmem)
        obtain rfl := Option.some.inj hf
        exact hreceives.bound local' id hbound

/-- A poll goes through; what it returns is the oldest message of the queue. -/
theorem Sound.poll (h : n.Sound ip P) (id : Nat) : ∃ n', n.poll id = some n' ∧ n'.Sound ip P ∧ n'.pushed = n.pushed := by
  unfold UdpNode.poll
  split
  next local_ f hget =>
    obtain ⟨owners, hreceives, hpops⟩ := h.receives
    have howner := hpops local_ f (List.mem_of_getElem? hget)
    rcases hreceives.pollPop howner with ⟨host, hpoll, hrec, hsame, -⟩ | ⟨slot, host, hpoll, hcame, hrec, hsame, -⟩
    · rw [hpoll]
      exact ⟨_, rfl, ⟨h.sends.congr hsame, ⟨owners, hrec, hpops⟩, h.popped⟩, rfl⟩
    · rw [hpoll]
      refine ⟨_, rfl, ⟨h.sends.congr hsame, ⟨owners, hrec, fun local' f' hmem => ?_⟩, fun slot' hslot' => ?_⟩, rfl⟩
      · rcases List.mem_or_eq_of_mem_set hmem with hmem | heq
        · exact hpops local' f' hmem
        · cases (Prod.mk.inj heq).2
      · rcases List.mem_append.mp hslot' with hslot' | hslot'
        · exact h.popped slot' hslot'
        · obtain rfl := List.mem_singleton.mp hslot'
          exact ⟨slot.local_, hcame⟩
  next => exact ⟨n, rfl, h, rfl⟩

theorem Sound.arrive (h : n.Sound ip P) {bytes : Buffer} (hP : P bytes) :
    ∃ n', n.step (.arrive bytes) = some n' ∧ n'.Sound ip P ∧ n'.pushed = n.pushed := by
  obtain ⟨owners, hreceives, hpops⟩ := h.receives
  obtain ⟨host, harrive, hrec, hsame, -⟩ := hreceives.arrive hP
  refine ⟨{ n with host }, by rw [step, harrive]; rfl, ⟨h.sends.congr hsame, ⟨owners, hrec, hpops⟩, h.popped⟩, rfl⟩

/-- A call goes through exactly if it can, and keeps all of this. -/
theorem Sound.step (h : n.Sound ip P) {e : Event} (he : e.hears = false) :
    ((n.step e).isSome = true ↔ n.CanStep e) ∧
      ∀ n', n.step e = some n' → n'.Sound ip P ∧ n.pushed ⊆ n'.pushed := by
  cases e with
  | doSocket qd =>
    refine ⟨⟨fun _ => trivial, fun _ => rfl⟩, fun n' hs => ?_⟩
    obtain rfl := Option.some.inj hs
    obtain ⟨owners, hreceives, -⟩ := h.receives
    exact ⟨h.receiver_same (hreceives.doSocket qd).2 fun _ hrec => (hrec.doSocket qd).1, List.Subset.refl _⟩
  | doBind qd addr =>
    refine ⟨⟨fun _ => trivial, fun _ => rfl⟩, fun n' hs => ?_⟩
    obtain rfl := Option.some.inj hs
    obtain ⟨owners, hreceives, -⟩ := h.receives
    exact ⟨h.receiver (hreceives.doBind qd addr).2 fun _ hrec => (hrec.doBind qd addr).1, List.Subset.refl _⟩
  | doClose qd =>
    refine ⟨⟨fun _ => trivial, fun _ => rfl⟩, fun n' hs => ?_⟩
    obtain rfl := Option.some.inj hs
    obtain ⟨owners, hreceives, -⟩ := h.receives
    exact ⟨h.receiver_same (hreceives.doClose qd).2 fun _ hrec => (hrec.doClose qd).1, List.Subset.refl _⟩
  | doPushto qd data remote linkAddr =>
    obtain ⟨hiff, hnext⟩ := h.sends.doPushto qd data remote linkAddr
    refine ⟨by rw [UdpNode.step, Option.isSome_map]; exact hiff, fun n' hs => ?_⟩
    obtain ⟨⟨r, host⟩, hpush, rfl⟩ := Option.map_eq_some_iff.mp hs
    obtain ⟨hsends, hsame⟩ := hnext r host hpush
    exact ⟨h.sender hsends hsame, List.subset_append_left _ _⟩
  | pollBackground answers =>
    obtain ⟨hiff, hnext⟩ := h.sends.pollBackground answers
    refine ⟨by rw [UdpNode.step, Option.isSome_map]; exact hiff, fun n' hs => ?_⟩
    obtain ⟨host, hpoll, rfl⟩ := Option.map_eq_some_iff.mp hs
    obtain ⟨hsends, hsame⟩ := hnext host hpoll
    exact ⟨h.sender hsends hsame, List.Subset.refl _⟩
  | doPop qd =>
    obtain ⟨hiff, hnext⟩ := h.doPop qd
    refine ⟨hiff, fun n' hs => ?_⟩
    obtain ⟨hsound, hpushed⟩ := hnext n' hs
    exact ⟨hsound, by rw [hpushed]; exact List.Subset.refl _⟩
  | poll id =>
    obtain ⟨n₁, hpoll, hsound, hpushed⟩ := h.poll id
    refine ⟨⟨fun _ => trivial, fun _ => by rw [UdpNode.step, hpoll]; rfl⟩, fun n' hs => ?_⟩
    obtain rfl := Option.some.inj (hpoll.symm.trans hs)
    exact ⟨hsound, by rw [hpushed]; exact List.Subset.refl _⟩
  | arrive bytes => cases he

end

end UdpNode

/-- The messages that wait in a receive queue. -/
def UdpHost.waiting (h : UdpHost) (id : Nat) : List (SharedQueueSlot Buffer) :=
  match h.queues[id]? with
  | some queue => queue.channel.buffer
  | none => []

section

variable {n : UdpNode} {ip : Ipv4Addr} {P : Buffer → Prop} {bytes buf data : Buffer} {ipv4Hdr : Ipv4Header}
  {hdr : UdpHeader} {owner : SocketAddrV4} {f : UdpPopFuture}

theorem UdpHost.arrive_of_parse {h : UdpHost} {id : Nat} (hpart : udpPart bytes = some (ipv4Hdr, buf))
    (hparse : UdpHeader.parse ipv4Hdr buf h.checksumOffload = some (.ok (hdr, data)))
    (hq : h.recvQueue ⟨ipv4Hdr.dstAddr, hdr.destPort⟩ = some id) :
    h.arrive bytes = h.enqueue id ⟨⟨ipv4Hdr.dstAddr, hdr.destPort⟩, ⟨ipv4Hdr.srcAddr, hdr.srcPort⟩, data⟩ := by
  unfold UdpHost.arrive
  rw [hpart]
  dsimp only [UdpHost.doReceive]
  rw [hparse, Option.bind_eq_bind, Option.bind_some]
  dsimp only
  rw [hq]
  dsimp only
  rw [Option.map_map]
  exact Option.map_id'

theorem UdpNode.push_sent {qd : QDesc} {local_ remote : SocketAddrV4} {linkAddr : MacAddress}
    (hsocket : n.host.localAddr qd = some local_)
    (hframe : (n.host.datagram linkAddr ⟨local_, remote, data⟩).frame = some bytes) :
    n.step (.doPushto qd data remote (some linkAddr)) = some { n with
      host := { n.host with transmitted := n.host.transmitted ++ [bytes] }
      pushed := n.pushed ++ [⟨local_, remote, data⟩] } := by
  have hsend : n.host.doPushto qd data remote (some linkAddr) =
      some (.ok (), { n.host with transmitted := n.host.transmitted ++ [bytes] }) := by
    rw [UdpHost.doPushto, UdpHost.localAddr_eq_some_iff.mp hsocket]
    dsimp only
    rw [UdpHost.doSend, hframe]
    rfl
  rw [UdpNode.step, hsend, UdpHost.asked, hsocket]
  rfl

theorem UdpNode.poll_ready {k : Nat} {remote : SocketAddrV4} {host : UdpHost}
    (hpop : n.pops[k]? = some (owner, some f)) (hpoll : n.host.pollPop f = some (some (.ok (remote, data)), host)) :
    n.step (.poll k) = some { n with
      host := host
      pops := n.pops.set k (owner, none)
      popped := n.popped ++ [⟨owner, remote, data⟩] } := by
  rw [UdpNode.step, UdpNode.poll, hpop]
  dsimp only
  rw [hpoll]

/-- A message that comes to an empty queue is what the next poll returns. -/
theorem UdpNode.Sound.arrive_poll (h : n.Sound ip P) (hP : P bytes) (hpart : udpPart bytes = some (ipv4Hdr, buf))
    (hparse : ∀ offload, UdpHeader.parse ipv4Hdr buf offload = some (.ok (hdr, data)))
    (hq : n.host.recvQueue ⟨ipv4Hdr.dstAddr, hdr.destPort⟩ = some f.recvQueue) {k : Nat}
    (hpop : n.pops[k]? = some (owner, some f)) (hempty : n.host.waiting f.recvQueue = []) :
    ∃ n₁ n₂, n.step (.arrive bytes) = some n₁ ∧ n₁.step (.poll k) = some n₂ ∧
      n₂.popped = n.popped ++ [⟨owner, ⟨ipv4Hdr.srcAddr, hdr.srcPort⟩, data⟩] := by
  obtain ⟨owners, hreceives, hpops⟩ := h.receives
  have howner := hpops owner f (List.mem_of_getElem? hpop)
  have hreaches : SocketAddrV4.Reaches ⟨ipv4Hdr.dstAddr, hdr.destPort⟩ owner := by
    obtain ⟨owner', hbound, hreaches⟩ := UdpHost.recvQueue_reaches hq
    obtain rfl := Option.some.inj (howner.symm.trans (hreceives.bound owner' _ hbound))
    exact hreaches
  have hcame : UdpHost.Came P owner ⟨⟨ipv4Hdr.dstAddr, hdr.destPort⟩, ⟨ipv4Hdr.srcAddr, hdr.srcPort⟩, data⟩ :=
    ⟨bytes, hP, ⟨ipv4Hdr, buf, false, hdr, hpart, hparse false, rfl, rfl⟩, hreaches⟩
  obtain ⟨queue, queue', items, hget, hkeeps, hkeeps', henq, -⟩ := hreceives.enqueue howner hcame
  have hitems : items = [] := by
    rw [UdpHost.waiting, hget] at hempty
    exact hkeeps.buffer.symm.trans hempty
  subst hitems
  have harrive := (UdpHost.arrive_of_parse hpart (hparse _) hq).trans henq
  obtain ⟨queue'', htake, -⟩ := hkeeps'.tryPop_cons
  have hset : (n.host.queues.set f.recvQueue queue')[f.recvQueue]? = some queue' :=
    List.getElem?_set_self (List.getElem?_eq_some_iff.mp hget).1
  have hstep : n.step (.arrive bytes) = some
      { n with host := { n.host with queues := n.host.queues.set f.recvQueue queue' } } := by
    rw [UdpNode.step, harrive]
    rfl
  have hpoll : UdpHost.pollPop { n.host with queues := n.host.queues.set f.recvQueue queue' } f =
      some (some (.ok (⟨ipv4Hdr.srcAddr, hdr.srcPort⟩, data)),
        { n.host with queues := (n.host.queues.set f.recvQueue queue').set f.recvQueue queue'' }) := by
    rw [UdpHost.pollPop]
    dsimp only
    rw [hset, Option.bind_eq_bind, Option.bind_some, htake]
    rfl
  exact ⟨_, _, hstep, UdpNode.poll_ready hpop hpoll, rfl⟩

end

/-- What an application or the scheduler makes a host do. -/
abbrev UdpAct := { e : UdpNode.Event // e.hears = false }

/-- The hosts of one link; what a host sends can reach every one of them. -/
def udpNetwork (H : Type) : Network H UdpNode Buffer UdpAct where
  act _ s e := s.step e.1
  hear _ s bytes := s.step (.arrive bytes)
  sent s := s.host.transmitted

namespace UdpNetwork

variable {H : Type} [DecidableEq H] (setup : H → UdpSetup)

def start (h : H) : UdpNode := .new (setup h)

/-- A host stands for the datagrams that its application has pushed. -/
def Claims (h : H) (s : UdpNode) (bytes : Buffer) : Prop := SpokenFor (setup h).localIpv4Addr s.pushed bytes

def HostInv (P : Buffer → Prop) (h : H) (s : UdpNode) : Prop := s.Sound (setup h).localIpv4Addr P

omit [DecidableEq H] in
theorem honest : (udpNetwork H).Honest (Claims setup) (HostInv setup) where
  mono hP h := h.mono hP
  sent h hmem := h.sends.transmitted _ hmem
  act := by
    rintro P h s ⟨e, hown⟩ s' hsound hs
    obtain ⟨hsound', hpushed⟩ := (UdpNode.Sound.step hsound hown).2 s' hs
    exact ⟨fun m hm => hm.mono hpushed, hsound'.mono fun m hm => .inl hm⟩
  hear := by
    rintro P h s bytes s' hsound hP - hs
    obtain ⟨n', harrive, hsound', hpushed⟩ := UdpNode.Sound.arrive hsound hP
    obtain rfl := Option.some.inj (harrive.symm.trans hs)
    refine ⟨fun m hm => ?_, hsound'.mono fun m hm => .inl hm⟩
    rw [Claims, hpushed]
    exact hm

omit [DecidableEq H] in
theorem inv_start : Network.Inv (Claims setup) (HostInv setup) (start setup) :=
  fun h => UdpNode.sound_new (setup h) _

/-- Whatever is lost, repeated or delivered to others: what a `pop` returns was pushed at some host, for the address that
the socket is bound to, and comes with the address of that host. -/
theorem run_genuine {n : H → UdpNode} {es : List (Network.Event H UdpAct)}
    (hr : run (udpNetwork H).step (start setup) es = some n) {h : H} {slot : SharedQueueSlot Buffer}
    (hslot : slot ∈ (n h).popped) :
    ∃ g, ∃ sent ∈ (n g).pushed, sent.remote.Reaches slot.local_ ∧
      slot.remote = ⟨(setup g).localIpv4Addr, sent.local_.port⟩ ∧ slot.data = carriedData sent.data ∧
      divertedData slot.data = false := by
  have hsound := (honest setup).run (inv_start setup) hr h
  obtain ⟨local_, bytes, ⟨g, sent, hsent, _, _, _, hframe⟩, hcarries, hreaches⟩ := hsound.popped slot hslot
  obtain ⟨heq, hdata⟩ := UdpDatagram.carries_frame hframe hcarries
  obtain ⟨hlocal, hremote, hcarried⟩ := SharedQueueSlot.mk.inj heq
  rw [hlocal] at hreaches
  exact ⟨g, sent, hsent, hreaches, hremote, hcarried, hdata⟩

/-- A push whose link address is known and whose frame reaches the host is what the next `pop` there returns, if nothing
waits in the queue of the address; data that the TCP peer takes for its own messages are excepted. -/
theorem push_delivers {n : H → UdpNode} {es : List (Network.Event H UdpAct)}
    (hr : run (udpNetwork H).step (start setup) es = some n) {g h : H} {qd : QDesc} {local_ remote owner : SocketAddrV4}
    {linkAddr : MacAddress} {data : Buffer} {k : Nat} {f : UdpPopFuture}
    (hsocket : (n g).host.localAddr qd = some local_)
    (hfits : ipv4HeaderMinSize + udpHeaderSize + data.length < 2 ^ 16) (hdata : divertedData data = false)
    (hq : (n h).host.recvQueue remote = some f.recvQueue) (hpop : (n h).pops[k]? = some (owner, some f))
    (hempty : (n h).host.waiting f.recvQueue = []) :
    ∃ n', run (udpNetwork H).step n [.act g ⟨.doPushto qd data remote (some linkAddr), rfl⟩,
        .deliver g h (n g).host.transmitted.length, .act h ⟨.poll k, rfl⟩] = some n' ∧
      (n' h).popped = (n h).popped ++ [⟨owner, ⟨(setup g).localIpv4Addr, local_.port⟩, data⟩] := by
  have hinv := (honest setup).run (inv_start setup) hr
  have hip : (n g).host.localIpv4Addr = (setup g).localIpv4Addr := (hinv g).sends.localIpv4Addr
  -- The datagram is sent.
  obtain ⟨bytes, hframe⟩ := UdpDatagram.frame_of_fits (n g).host.localIpv4Addr (n g).host.localLinkAddr linkAddr local_
    remote (n g).host.checksumOffload hfits
  have hpush := UdpNode.push_sent hsocket hframe
  generalize hs : ({ n g with
    host := { (n g).host with transmitted := (n g).host.transmitted ++ [bytes] }
    pushed := (n g).pushed ++ [⟨local_, remote, data⟩] } : UdpNode) = s at hpush
  have hfirst : (udpNetwork H).step n (.act g ⟨.doPushto qd data remote (some linkAddr), rfl⟩) =
      some (Function.update n g s) := congrArg (Option.map (Function.update n g)) hpush
  have hinv' := (honest setup).step hinv hfirst
  generalize hn₁ : Function.update n g s = n₁ at hfirst hinv'
  have hsent : ((udpNetwork H).sent (n₁ g))[(n g).host.transmitted.length]? = some bytes := by
    rw [← hn₁, Function.update_self, ← hs]
    exact List.getElem?_concat_length
  have hreceiver : (n₁ h).host.recvQueue remote = some f.recvQueue ∧ (n₁ h).pops[k]? = some (owner, some f) ∧
      (n₁ h).host.waiting f.recvQueue = [] ∧ (n₁ h).popped = (n h).popped := by
    rw [← hn₁]
    by_cases heq : h = g
    · subst heq
      rw [Function.update_self, ← hs]
      exact ⟨hq, hpop, hempty, rfl⟩
    · rw [Function.update_of_ne heq]
      exact ⟨hq, hpop, hempty, rfl⟩
  -- It arrives and is popped.
  obtain ⟨hq₁, hpop₁, hempty₁, hpopped₁⟩ := hreceiver
  have hlt : udpHeaderSize + data.length < 2 ^ 16 := Nat.lt_of_le_of_lt (by omega) hfits
  obtain ⟨ipv4Hdr, buf, hpart, hsrc, hdst, hparse⟩ := UdpDatagram.udpPart_of_fits hframe hlt hdata
  have hsaid : Network.Said (Claims setup) n₁ bytes :=
    ⟨g, (honest setup).sent (hinv' g) (List.mem_of_getElem? hsent)⟩
  rw [← show (⟨ipv4Hdr.dstAddr, remote.port⟩ : SocketAddrV4) = remote by rw [hdst]] at hq₁
  obtain ⟨n₂, n₃, harrive, hpoll, hpopped⟩ := (hinv' h).arrive_poll hsaid hpart hparse hq₁ hpop₁ hempty₁
  have hsecond : (udpNetwork H).step n₁ (.deliver g h (n g).host.transmitted.length) = some (Function.update n₁ h n₂) := by
    simp only [Network.step, hsent]
    exact congrArg (Option.map (Function.update n₁ h)) harrive
  have hthird : (udpNetwork H).step (Function.update n₁ h n₂) (.act h ⟨.poll k, rfl⟩) =
      some (Function.update (Function.update n₁ h n₂) h n₃) := by
    simp only [Network.step, Function.update_self]
    exact congrArg (Option.map (Function.update (Function.update n₁ h n₂) h)) hpoll
  refine ⟨_, (run_cons hfirst).trans ((run_cons hsecond).trans (run_cons hthird)), ?_⟩
  rw [Function.update_self, hpopped, hpopped₁, hsrc, hip]

/-- Two hosts with no ports to give away. -/
def sampleSetup (h : Bool) : UdpSetup where
  localLinkAddr := if h then ⟨2, 0, 0, 0, 0, 2⟩ else ⟨2, 0, 0, 0, 0, 1⟩
  localIpv4Addr := if h then ⟨10, 0, 0, 2⟩ else ⟨10, 0, 0, 1⟩
  checksumOffload := false
  ephemeralPorts := ⟨[]⟩

/-- A server waits at the wildcard address, and a client has a socket. -/
def samplePops : List (Network.Event Bool UdpAct) :=
  [.act true ⟨.doSocket 1, rfl⟩, .act true ⟨.doBind 1 ⟨.unspecified, 53⟩, rfl⟩, .act true ⟨.doPop 1, rfl⟩,
    .act false ⟨.doSocket 7, rfl⟩, .act false ⟨.doBind 7 ⟨⟨10, 0, 0, 1⟩, 5353⟩, rfl⟩]

/-- What the client sends comes twice, and only one `pop` waits for it. -/
theorem run_genuine_sample : ∃ n slot, run (udpNetwork Bool).step (start sampleSetup) (samplePops ++
      [.act false ⟨.doPushto 7 [4, 5, 6] ⟨⟨10, 0, 0, 2⟩, 53⟩ (some ⟨2, 0, 0, 0, 0, 2⟩), rfl⟩,
        .deliver false true 0, .deliver false true 0, .act true ⟨.poll 0, rfl⟩, .act true ⟨.poll 0, rfl⟩]) = some n ∧
    (n true).popped = [slot] ∧ slot.data = [4, 5, 6] ∧
    ∃ g, ∃ sent ∈ (n g).pushed, slot.remote = ⟨(sampleSetup g).localIpv4Addr, sent.local_.port⟩ := by
  have hpopped : (run (udpNetwork Bool).step (start sampleSetup) (samplePops ++
      [.act false ⟨.doPushto 7 [4, 5, 6] ⟨⟨10, 0, 0, 2⟩, 53⟩ (some ⟨2, 0, 0, 0, 0, 2⟩), rfl⟩,
        .deliver false true 0, .deliver false true 0, .act true ⟨.poll 0, rfl⟩, .act true ⟨.poll 0, rfl⟩])).map
        (fun n => (n true).popped) =
      some [⟨⟨.unspecified, 53⟩, ⟨⟨10, 0, 0, 1⟩, 5353⟩, [4, 5, 6]⟩] := by decide +kernel
  obtain ⟨n, hr, hn⟩ := Option.map_eq_some_iff.mp hpopped
  have hslot : ⟨⟨.unspecified, 53⟩, ⟨⟨10, 0, 0, 1⟩, 5353⟩, [4, 5, 6]⟩ ∈ (n true).popped := by
    rw [hn]
    exact List.mem_cons_self
  obtain ⟨g, sent, hsent, -, hremote, -⟩ := run_genuine sampleSetup hr hslot
  exact ⟨n, _, hr, hn, rfl, g, sent, hsent, hremote⟩

theorem push_delivers_sample : ∃ n n', run (udpNetwork Bool).step (start sampleSetup) samplePops = some n ∧
    run (udpNetwork Bool).step n [.act false ⟨.doPushto 7 [4, 5, 6] ⟨⟨10, 0, 0, 2⟩, 53⟩ (some ⟨2, 0, 0, 0, 0, 2⟩), rfl⟩,
      .deliver false true 0, .act true ⟨.poll 0, rfl⟩] = some n' ∧
    (n' true).popped = [⟨⟨.unspecified, 53⟩, ⟨⟨10, 0, 0, 1⟩, 5353⟩, [4, 5, 6]⟩] := by
  obtain ⟨n, hr, hsocket, hq, hpops, hempty, hsent, hpopped⟩ : ∃ n,
      run (udpNetwork Bool).step (start sampleSetup) samplePops = some n ∧
      (n false).host.localAddr 7 = some ⟨⟨10, 0, 0, 1⟩, 5353⟩ ∧
      (n true).host.recvQueue ⟨⟨10, 0, 0, 2⟩, 53⟩ = some 0 ∧ (n true).pops = [(⟨.unspecified, 53⟩, some ⟨1, 0⟩)] ∧
      (n true).host.waiting 0 = [] ∧ (n false).host.transmitted = [] ∧ (n true).popped = [] :=
    ⟨_, rfl, rfl, rfl, rfl, rfl, rfl, rfl⟩
  have hpop : (n true).pops[0]? = some (⟨.unspecified, 53⟩, some ⟨1, 0⟩) := by rw [hpops]; rfl
  obtain ⟨n', hr', hdelivered⟩ := @push_delivers _ _ sampleSetup _ _ hr _ _ _ _ _ _ ⟨2, 0, 0, 0, 0, 2⟩ [4, 5, 6] _ _
    hsocket (by decide) (by decide) hq hpop hempty
  rw [hsent] at hr'
  rw [hpopped] at hdelivered
  exact ⟨n, n', hr, hr', hdelivered⟩

end UdpNetwork

end Capybara
