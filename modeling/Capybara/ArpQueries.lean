import Capybara.ArpPeer
import Capybara.Lib.Runs

namespace Capybara

namespace ArpQueries

/-- The first link address that each query has heard since it registered. -/
abbrev Heard := Nat → Option MacAddress

def waitsFor (s : ArpQueries) (id : Nat) (ipv4Addr : Ipv4Addr) : Bool :=
  match s.queries[id]? with
  | some ⟨ipv4Addr', .waiting _⟩ => decide (ipv4Addr' = ipv4Addr)
  | _ => false

def hear (s : ArpQueries) (heard : Heard) : Event → Heard
  | .receive header => fun id =>
    if s.peer.accepts header ∧ heard id = none ∧ s.waitsFor id header.senderProtocolAddr then
      some header.senderHardwareAddr
    else heard id
  | _ => heard

/-- The steps of the queries, with what each has heard kept beside. -/
def watch (s : ArpQueries × Heard) (e : Event) : Option (ArpQueries × Heard) :=
  (s.1.step e).map fun s' => (s', s.1.hear s.2 e)

/-- The query waits for the address and nobody has answered it. -/
def unanswered (s : ArpQueries) (id : Nat) (ipv4Addr : Ipv4Addr) : Bool :=
  match s.queries[id]? with
  | some ⟨ipv4Addr', .waiting w⟩ => decide (ipv4Addr' = ipv4Addr) && decide (s.peer.channels[w.rx]? = some .empty)
  | _ => false

/-- The address whose query gives up when it is polled now: the last timer has run out, and it is seen first if an
answer is there as well. -/
def givesUp (s : ArpQueries) (id : Nat) (timerFirst : Nat → Bool) : Option Ipv4Addr :=
  match s.queries[id]? with
  | some ⟨ipv4Addr, .created⟩ =>
    if s.peer.cache.get ipv4Addr = none ∧ s.peer.arpConfig.requestTimeout = 0 then some ipv4Addr else none
  | some ⟨ipv4Addr, .waiting w⟩ =>
    if LastTimer s.peer.arpConfig.requestTimeout s.peer.clock w.retries w.deadline ∧
        (s.peer.channels[w.rx]? = some .empty ∨ (List.range (w.retries + 1)).all timerFirst = true) then
      some ipv4Addr
    else none
  | _ => none

/-- A query that gives up is the only one that still waits for its address. -/
def Alone (s : ArpQueries) : Event → Prop
  | .poll id timerFirst => ∀ ipv4Addr ∈ s.givesUp id timerFirst, ∀ id' ∈ List.range s.queries.length,
    id' ≠ id → s.unanswered id' ipv4Addr = false
  | _ => True

instance (s : ArpQueries) : (e : Event) → Decidable (s.Alone e)
  | .poll id timerFirst => inferInstanceAs (Decidable (∀ ipv4Addr ∈ s.givesUp id timerFirst,
      ∀ id' ∈ List.range s.queries.length, id' ≠ id → s.unanswered id' ipv4Addr = false))
  | .query _ => inferInstanceAs (Decidable True)
  | .drop _ => inferInstanceAs (Decidable True)
  | .receive _ => inferInstanceAs (Decidable True)
  | .advanceClock _ => inferInstanceAs (Decidable True)
  | .background => inferInstanceAs (Decidable True)

def timeoutFail : Fail := ⟨.ETIMEDOUT, "ARP query timeout"⟩

/-- What a poll makes of a query that waits: the address that was heard, a timeout when the last timer has run out, and
else more waiting. -/
def Settles (s : ArpQueries) (w : Waiting) (heard : Option MacAddress) (state : QueryState) : Prop :=
  (∀ linkAddr, heard = some linkAddr → state = .done (.ok linkAddr) ∨
    LastTimer s.peer.arpConfig.requestTimeout s.peer.clock w.retries w.deadline ∧ state = .done (.error timeoutFail)) ∧
  (heard = none → state =
    if LastTimer s.peer.arpConfig.requestTimeout s.peer.clock w.retries w.deadline then .done (.error timeoutFail)
    else if w.deadline ≤ s.peer.clock then
      .waiting ⟨w.retries - 1, s.peer.clock + s.peer.arpConfig.requestTimeout, w.rx⟩
    else .waiting w)

/-- A poll answers from the cache, or registers the query with all its attempts ahead, and from then on settles it. -/
def Answers (s : ArpQueries) (heard : Heard) (id : Nat) (s' : ArpQueries) : Prop :=
  (∀ ipv4Addr, s.queries[id]? = some ⟨ipv4Addr, .created⟩ → ∃ state, s'.queries[id]? = some ⟨ipv4Addr, state⟩ ∧
    (∀ linkAddr, s.peer.cache.get ipv4Addr = some linkAddr → state = .done (.ok linkAddr)) ∧
    (s.peer.cache.get ipv4Addr = none → s.Settles ⟨s.peer.arpConfig.retryCount,
      s.peer.clock + s.peer.arpConfig.requestTimeout, s.peer.channels.length⟩ none state)) ∧
  (∀ ipv4Addr w, s.queries[id]? = some ⟨ipv4Addr, .waiting w⟩ → ∃ state, s'.queries[id]? = some ⟨ipv4Addr, state⟩ ∧
    s.Settles w (heard id) state)

def WaitsAt (s : ArpQueries) (id : Nat) (ipv4Addr : Ipv4Addr) (w : Waiting) : Prop :=
  s.queries[id]? = some ⟨ipv4Addr, .waiting w⟩

/-- The channel of a query shows what the query has heard, and stands in the queue of its address only, as long as that
is nothing. -/
structure Served (p : ArpPeer) (ipv4Addr : Ipv4Addr) (rx : Nat) (heard : Option MacAddress) : Prop where
  channel : p.channels[rx]? = some (heard.elim .empty .sent)
  queued : heard = none → rx ∈ p.queue ipv4Addr
  only : ∀ ipv4Addr', rx ∈ p.queue ipv4Addr' → ipv4Addr' = ipv4Addr

structure Sound (s : ArpQueries) (heard : Heard) : Prop where
  live : s.peer.cache.Live s.peer.clock
  served : ∀ id ipv4Addr w, s.WaitsAt id ipv4Addr w → Served s.peer ipv4Addr w.rx (heard id)
  distinct : ∀ id id' ipv4Addr ipv4Addr' w w', s.WaitsAt id ipv4Addr w → s.WaitsAt id' ipv4Addr' w' →
    w.rx = w'.rx → id = id'
  inside : ∀ ipv4Addr, ∀ rx ∈ s.peer.queue ipv4Addr, rx < s.peer.channels.length
  fresh : ∀ id, heard id ≠ none → ∀ ipv4Addr, s.queries[id]? ≠ some ⟨ipv4Addr, .created⟩
  named : ∀ id, heard id ≠ none → id < s.queries.length

variable {s : ArpQueries} {heard : Heard}

theorem waitsAt_put {peer : ArpPeer} {id id' : Nat} {ipv4Addr ipv4Addr' : Ipv4Addr} {state : QueryState} {w : Waiting}
    (h : (s.put peer id ipv4Addr state).WaitsAt id' ipv4Addr' w) :
    (id' = id ∧ ipv4Addr' = ipv4Addr ∧ state = .waiting w) ∨ (id' ≠ id ∧ s.WaitsAt id' ipv4Addr' w) := by
  change (s.queries.set id ⟨ipv4Addr, state⟩)[id']? = _ at h
  by_cases hid : id' = id
  · subst id'
    have hlt : id < s.queries.length := by
      have hl := (List.getElem?_eq_some_iff.mp h).1
      rwa [List.length_set] at hl
    rw [List.getElem?_set_self hlt] at h
    cases h
    exact .inl ⟨rfl, rfl, rfl⟩
  · rw [List.getElem?_set_ne (Ne.symm hid)] at h
    exact .inr ⟨hid, h⟩

theorem getElem?_put {peer : ArpPeer} {id : Nat} {ipv4Addr : Ipv4Addr} {state : QueryState} {q : ArpQuery}
    (h : s.queries[id]? = some q) :
    (s.put peer id ipv4Addr state).queries[id]? = some ⟨ipv4Addr, state⟩ :=
  List.getElem?_set_self (List.getElem?_eq_some_iff.mp h).1

/-- A query that has left its place keeps the others served if the peer does. -/
theorem Sound.put (h : Sound s heard) {peer : ArpPeer} {id : Nat} {ipv4Addr : Ipv4Addr} {state : QueryState}
    (hlive : peer.cache.Live peer.clock) (hinside : ∀ ipv4Addr, ∀ rx ∈ peer.queue ipv4Addr, rx < peer.channels.length)
    (hothers : ∀ id' ipv4Addr' w, id' ≠ id → s.WaitsAt id' ipv4Addr' w → Served peer ipv4Addr' w.rx (heard id'))
    (hcreated : state ≠ .created)
    (hself : ∀ w, state = .waiting w → Served peer ipv4Addr w.rx (heard id) ∧
      ∀ id' ipv4Addr' w', id' ≠ id → s.WaitsAt id' ipv4Addr' w' → w'.rx ≠ w.rx) :
    Sound (s.put peer id ipv4Addr state) heard := by
  refine ⟨hlive, fun id' ipv4Addr' w hw => ?_, fun id₁ id₂ a₁ a₂ w₁ w₂ hw₁ hw₂ hrx => ?_, hinside,
    fun id' hh ipv4Addr' hc => ?_, fun id' hh => ?_⟩
  · rcases waitsAt_put hw with ⟨rfl, rfl, hst⟩ | ⟨hne, hw⟩
    · exact (hself w hst).1
    · exact hothers id' ipv4Addr' w hne hw
  · rcases waitsAt_put hw₁ with ⟨rfl, rfl, hst₁⟩ | ⟨hne₁, hold₁⟩
    · rcases waitsAt_put hw₂ with ⟨rfl, -, -⟩ | ⟨hne₂, hold₂⟩
      · rfl
      · exact absurd hrx.symm ((hself w₁ hst₁).2 id₂ a₂ w₂ hne₂ hold₂)
    · rcases waitsAt_put hw₂ with ⟨rfl, rfl, hst₂⟩ | ⟨-, hold₂⟩
      · exact absurd hrx ((hself w₂ hst₂).2 id₁ a₁ w₁ hne₁ hold₁)
      · exact h.distinct id₁ id₂ a₁ a₂ w₁ w₂ hold₁ hold₂ hrx
  · change (s.queries.set id ⟨ipv4Addr, state⟩)[id']? = _ at hc
    by_cases hid : id' = id
    · subst id'
      have hlt : id < s.queries.length := h.named id hh
      rw [List.getElem?_set_self hlt] at hc
      cases hc
      exact hcreated rfl
    · rw [List.getElem?_set_ne (Ne.symm hid)] at hc
      exact h.fresh id' hh ipv4Addr' hc
  · show id' < (s.queries.set id ⟨ipv4Addr, state⟩).length
    rw [List.length_set]
    exact h.named id' hh

/-- A query that does not wait any more leaves a peer with the same queues and channels. -/
theorem Sound.finish (h : Sound s heard) {peer : ArpPeer} {id : Nat} (ipv4Addr : Ipv4Addr) {state : QueryState}
    (hcache : peer.cache.Live peer.clock) (hw : peer.waiters = s.peer.waiters) (hc : peer.channels = s.peer.channels)
    (hcreated : state ≠ .created) (hwait : ∀ w, state ≠ .waiting w) : Sound (s.put peer id ipv4Addr state) heard := by
  have hqueue : ∀ ipv4Addr, peer.queue ipv4Addr = s.peer.queue ipv4Addr := fun ipv4Addr => by
    rw [ArpPeer.queue, hw]
    rfl
  refine h.put hcache (fun ipv4Addr rx hrx => ?_) (fun id' ipv4Addr' w hne hw' => ?_) hcreated
    (fun w hw' => absurd hw' (hwait w))
  · rw [hc]
    rw [hqueue] at hrx
    exact h.inside ipv4Addr rx hrx
  · obtain ⟨hch, hqu, hon⟩ := h.served id' ipv4Addr' w hw'
    refine ⟨by rw [hc]; exact hch, fun hh => ?_, fun ipv4Addr'' hrx => ?_⟩
    · rw [hqueue]
      exact hqu hh
    · rw [hqueue] at hrx
      exact hon ipv4Addr'' hrx

theorem Sound.query (h : Sound s heard) (ipv4Addr : Ipv4Addr) :
    Sound { s with queries := s.queries ++ [⟨ipv4Addr, .created⟩] } heard := by
  have hold : ∀ id ipv4Addr' w, (s.queries ++ [⟨ipv4Addr, .created⟩])[id]? = some ⟨ipv4Addr', .waiting w⟩ →
      s.WaitsAt id ipv4Addr' w := by
    intro id ipv4Addr' w hw
    rw [List.getElem?_append] at hw
    split at hw
    next => exact hw
    next =>
      have hmem := List.mem_of_getElem? hw
      cases List.mem_singleton.mp hmem
  refine ⟨h.live, fun id a w hw => h.served id a w (hold id a w hw),
    fun id id' a a' w w' hw hw' => h.distinct id id' a a' w w' (hold id a w hw) (hold id' a' w' hw'), h.inside,
    fun id hh a hc => ?_, fun id hh => ?_⟩
  · change (s.queries ++ [⟨ipv4Addr, .created⟩])[id]? = _ at hc
    rw [List.getElem?_append_left (h.named id hh)] at hc
    exact h.fresh id hh a hc
  · have hlt := h.named id hh
    show id < (s.queries ++ [(⟨ipv4Addr, .created⟩ : ArpQuery)]).length
    rw [List.length_append]
    omega

theorem Sound.drop (h : Sound s heard) (id : Nat) : Sound (s.drop id) heard := by
  have hfinish : ∀ ipv4Addr, Sound (s.put s.peer id ipv4Addr .dropped) heard := fun ipv4Addr =>
    h.finish ipv4Addr h.live rfl rfl (by simp) (by simp)
  unfold ArpQueries.drop
  split
  next ipv4Addr _ => exact hfinish ipv4Addr
  next ipv4Addr _ _ => exact hfinish ipv4Addr
  next => exact h

/-- A poll of a query that was created registers it, with an empty channel at the end of the queue. -/
theorem Sound.register (h : Sound s heard) {id : Nat} {ipv4Addr : Ipv4Addr} {w : Waiting}
    (hid : s.queries[id]? = some ⟨ipv4Addr, .created⟩) (hmiss : s.peer.cache.get ipv4Addr = none)
    (hrx : w.rx = s.peer.channels.length) :
    heard id = none ∧ Sound (s.put (s.peer.doWaitLinkAddr ipv4Addr).2 id ipv4Addr (.waiting w)) heard := by
  have hnone : heard id = none := by
    by_contra hne
    exact h.fresh id hne ipv4Addr hid
  obtain ⟨waiters, hreg, hqueue⟩ := ArpPeer.doWaitLinkAddr_miss hmiss
  rw [hreg]
  have hbelow : ∀ id' ipv4Addr' w', s.WaitsAt id' ipv4Addr' w' → w'.rx < s.peer.channels.length :=
    fun id' ipv4Addr' w' hw' => (List.getElem?_eq_some_iff.mp (h.served id' ipv4Addr' w' hw').channel).1
  have hnew : s.peer.channels.length ∉ s.peer.queue ipv4Addr := fun hmem => Nat.lt_irrefl _ (h.inside ipv4Addr _ hmem)
  refine ⟨hnone, h.put h.live (fun a rx hmem => ?_) (fun id' a w' hne hw' => ?_) (by simp) (fun w' hw' => ?_)⟩
  · change rx ∈ (waiters.get a).getD [] at hmem
    show rx < (s.peer.channels ++ [Oneshot.empty]).length
    rw [hqueue] at hmem
    rw [List.length_append, List.length_singleton]
    split at hmem
    next =>
      rcases List.mem_append.mp hmem with hold | hlast
      · exact Nat.lt_succ_of_lt (h.inside ipv4Addr rx hold)
      · exact Nat.lt_succ_of_le (List.mem_singleton.mp hlast).le
    next => exact Nat.lt_succ_of_lt (h.inside a rx hmem)
  · obtain ⟨hch, hqu, hon⟩ := h.served id' a w' hw'
    have hlt := hbelow id' a w' hw'
    refine ⟨?_, fun hh => ?_, fun a' hmem => ?_⟩
    · show (s.peer.channels ++ [.empty])[w'.rx]? = _
      rw [List.getElem?_append_left hlt]
      exact hch
    · show w'.rx ∈ (waiters.get a).getD []
      rw [hqueue]
      split
      next ha =>
        subst a
        exact List.mem_append_left _ (hqu hh)
      next => exact hqu hh
    · change w'.rx ∈ (waiters.get a').getD [] at hmem
      rw [hqueue] at hmem
      split at hmem
      next ha =>
        subst a'
        rcases List.mem_append.mp hmem with hold | hlast
        · exact hon ipv4Addr hold
        · exact absurd (List.mem_singleton.mp hlast) (Nat.ne_of_lt hlt)
      next => exact hon a' hmem
  · obtain rfl := QueryState.waiting.inj hw'
    refine ⟨⟨?_, fun _ => ?_, fun a' hmem => ?_⟩, fun id' a w' _ hw' => ?_⟩
    · show (s.peer.channels ++ [.empty])[w.rx]? = _
      rw [hrx, hnone]
      exact List.getElem?_concat_length ..
    · show w.rx ∈ (waiters.get ipv4Addr).getD []
      rw [hqueue, if_pos rfl, hrx]
      exact List.mem_append_right _ (List.mem_singleton_self _)
    · change w.rx ∈ (waiters.get a').getD [] at hmem
      rw [hqueue, hrx] at hmem
      split at hmem
      next ha => exact ha
      next => exact absurd (h.inside a' _ hmem) (Nat.lt_irrefl _)
    · rw [hrx]
      exact Nat.ne_of_lt (hbelow id' a w' hw')

/-- A query that gives up takes the whole queue of its address along, which no other query needs any more. -/
theorem Sound.giveUp (h : Sound s heard) {id : Nat} {ipv4Addr : Ipv4Addr} {state : QueryState}
    (halone : ∀ id' w, id' ≠ id → s.WaitsAt id' ipv4Addr w → heard id' ≠ none) (hcreated : state ≠ .created)
    (hwait : ∀ w, state ≠ .waiting w) : Sound (s.put (s.peer.doDrop ipv4Addr) id ipv4Addr state) heard := by
  have hqueue := @ArpPeer.queue_of_remove s.peer (s.peer.doDrop ipv4Addr) ipv4Addr rfl
  refine h.put h.live (fun a rx hmem => ?_) (fun id' a w hne hw => ?_) hcreated (fun w hw => absurd hw (hwait w))
  · show rx < (Oneshot.settleAll s.peer.channels _ _).length
    rw [Oneshot.length_settleAll]
    rw [hqueue] at hmem
    split at hmem
    next => cases hmem
    next => exact h.inside a rx hmem
  · obtain ⟨hch, hqu, hon⟩ := h.served id' a w hw
    refine ⟨?_, fun hh => ?_, fun a' hmem => ?_⟩
    · show (Oneshot.settleAll s.peer.channels (s.peer.queue ipv4Addr) .canceled)[w.rx]? = _
      by_cases ha : a = ipv4Addr
      · subst a
        obtain ⟨linkAddr, hl⟩ := Option.ne_none_iff_exists'.mp (halone id' w hne hw)
        rw [hl] at hch ⊢
        exact Oneshot.getElem?_settleAll_of_ne (by simp) hch (by simp)
      · rw [Oneshot.getElem?_settleAll (by simp), if_neg (fun hmem => ha (hon ipv4Addr hmem).symm)]
        exact hch
    · have ha : a ≠ ipv4Addr := by
        rintro rfl
        exact halone id' w hne hw hh
      rw [hqueue, if_neg ha]
      exact hqu hh
    · rw [hqueue] at hmem
      split at hmem
      next => cases hmem
      next => exact hon a' hmem

/-- A poll of a query that waits settles it. -/
theorem Sound.resume (h : Sound s heard) {id : Nat} {ipv4Addr : Ipv4Addr} {w : Waiting} {timerFirst : Nat → Bool}
    (hw : s.WaitsAt id ipv4Addr w) (started : Nat)
    (halone : LastTimer s.peer.arpConfig.requestTimeout s.peer.clock w.retries w.deadline →
      (heard id = none ∨ ∀ i ≤ w.retries, timerFirst i = true) →
        ∀ id' w', id' ≠ id → s.WaitsAt id' ipv4Addr w' → heard id' ≠ none) :
    ∃ s' state, s.resume s.peer id ipv4Addr w timerFirst started = some s' ∧ Sound s' heard ∧
      s'.queries[id]? = some ⟨ipv4Addr, state⟩ ∧ s.Settles w (heard id) state := by
  obtain ⟨hch, hqu, hon⟩ := h.served id ipv4Addr w hw
  have hlater : ∀ {outcome more}, attempts ((heard id).elim .empty .sent) s.peer.clock
      s.peer.arpConfig.requestTimeout timerFirst w.retries w.deadline = some (outcome, more) →
      s.resume s.peer id ipv4Addr w timerFirst started = some (s.conclude (s.peer.transmit
        (List.replicate (started + more) (s.peer.request ipv4Addr))) id ipv4Addr w.rx outcome) := by
    intro outcome more ho
    rw [ArpQueries.resume, hch]
    simp only [Option.bind_eq_bind, Option.bind_some, ho]
  have hgiveUp : ∀ msgs, (∀ id' w', id' ≠ id → s.WaitsAt id' ipv4Addr w' → heard id' ≠ none) →
      Sound (s.put ((s.peer.transmit msgs).doDrop ipv4Addr) id ipv4Addr (.done (.error timeoutFail))) heard := by
    intro msgs hothers
    have hsent : Sound { s with peer := s.peer.transmit msgs } heard :=
      ⟨h.live, fun id a w hw => ⟨(h.served id a w hw).1, (h.served id a w hw).2, (h.served id a w hw).3⟩, h.distinct,
        h.inside, h.fresh, h.named⟩
    exact hsent.giveUp hothers (by simp) (by simp)
  cases hh : heard id with
  | some linkAddr =>
    rw [hh] at hlater halone
    rcases @attempts_sent s.peer.clock w.deadline s.peer.arpConfig.requestTimeout w.retries timerFirst linkAddr with
      ⟨more, hr⟩ | ⟨more, hr, hlast, hall⟩
    · refine ⟨_, .done (.ok linkAddr), hlater hr, h.finish ipv4Addr h.live rfl rfl (by simp) (by simp),
        getElem?_put hw, ?_⟩
      exact ⟨fun l hl => .inl (by rw [Option.some.inj hl]), fun hn => (by cases hn)⟩
    · refine ⟨_, .done (.error timeoutFail), hlater hr, hgiveUp _ (halone hlast (.inr hall)), getElem?_put hw, ?_⟩
      exact ⟨fun l hl => .inr ⟨hlast, rfl⟩, fun hn => (by cases hn)⟩
  | none =>
    rw [hh] at hlater halone
    obtain ⟨more, hr⟩ := @attempts_empty s.peer.clock w.deadline s.peer.arpConfig.requestTimeout w.retries timerFirst
    have hkeep : ∀ msgs w', w'.rx = w.rx → Sound (s.put (s.peer.transmit msgs) id ipv4Addr (.waiting w')) heard := by
      intro msgs w' hrx
      refine h.put h.live h.inside (fun id' a w'' hne hw'' => ?_) (by simp) (fun w'' hw'' => ?_)
      · exact ⟨(h.served id' a w'' hw'').1, (h.served id' a w'' hw'').2, (h.served id' a w'' hw'').3⟩
      · obtain rfl := QueryState.waiting.inj hw''
        rw [hrx]
        exact ⟨⟨hch, hqu, hon⟩, fun id' a w'' hne hw'' heq => hne (h.distinct id' id a ipv4Addr w'' w hw'' hw heq)⟩
    by_cases hlast : LastTimer s.peer.arpConfig.requestTimeout s.peer.clock w.retries w.deadline
    · rw [if_pos hlast] at hr
      refine ⟨_, .done (.error timeoutFail), hlater hr, hgiveUp _ (halone hlast (.inl rfl)), getElem?_put hw, ?_⟩
      exact ⟨fun l hl => (by cases hl), fun _ => (if_pos hlast).symm⟩
    · rw [if_neg hlast] at hr
      by_cases hx : w.deadline ≤ s.peer.clock
      · rw [if_pos hx] at hr
        refine ⟨_, .waiting ⟨w.retries - 1, s.peer.clock + s.peer.arpConfig.requestTimeout, w.rx⟩, hlater hr,
          hkeep _ _ rfl, getElem?_put hw, fun l hl => (by cases hl), fun _ => ?_⟩
        rw [if_neg hlast, if_pos hx]
      · rw [if_neg hx] at hr
        refine ⟨_, .waiting w, hlater hr, hkeep _ _ rfl, getElem?_put hw, fun l hl => (by cases hl), fun _ => ?_⟩
        rw [if_neg hlast, if_neg hx]

theorem put_put (s : ArpQueries) (peer peer' : ArpPeer) (id : Nat) (ipv4Addr ipv4Addr' : Ipv4Addr)
    (state state' : QueryState) :
    (s.put peer id ipv4Addr state).put peer' id ipv4Addr' state' = s.put peer' id ipv4Addr' state' := by
  simp [put]

theorem resume_put (s : ArpQueries) (peer : ArpPeer) (id : Nat) (ipv4Addr : Ipv4Addr) (w : Waiting)
    (timerFirst : Nat → Bool) (started : Nat) :
    (s.put peer id ipv4Addr (.waiting w)).resume peer id ipv4Addr w timerFirst started =
      s.resume peer id ipv4Addr w timerFirst started := by
  have hconclude : ∀ (peer' : ArpPeer) (outcome : QueryPoll),
      (s.put peer id ipv4Addr (.waiting w)).conclude peer' id ipv4Addr w.rx outcome =
        s.conclude peer' id ipv4Addr w.rx outcome := by
    intro peer' outcome
    cases outcome with
    | ready linkAddr => exact put_put ..
    | pending retries deadline => exact put_put ..
    | timedOut => exact put_put ..
  simp only [resume, hconclude]

theorem unanswered_iff (h : Sound s heard) {id : Nat} {ipv4Addr : Ipv4Addr} {w : Waiting}
    (hw : s.WaitsAt id ipv4Addr w) : s.unanswered id ipv4Addr = true ↔ heard id = none := by
  have hchan := (h.served id ipv4Addr w hw).channel
  have hread : s.unanswered id ipv4Addr = decide (s.peer.channels[w.rx]? = some .empty) := by
    rw [unanswered, hw]
    simp
  rw [hread, hchan]
  cases heard id with
  | none => simp
  | some linkAddr => simp

theorem answers_of_created {s' : ArpQueries} {id : Nat} {ipv4Addr : Ipv4Addr} {state : QueryState}
    (hq : s.queries[id]? = some ⟨ipv4Addr, .created⟩) (hst : s'.queries[id]? = some ⟨ipv4Addr, state⟩)
    (hhit : ∀ linkAddr, s.peer.cache.get ipv4Addr = some linkAddr → state = .done (.ok linkAddr))
    (hmiss : s.peer.cache.get ipv4Addr = none → s.Settles ⟨s.peer.arpConfig.retryCount,
      s.peer.clock + s.peer.arpConfig.requestTimeout, s.peer.channels.length⟩ none state) : s.Answers heard id s' := by
  refine ⟨fun a hc => ?_, fun a w hc => ?_⟩
  · cases hq.symm.trans hc
    exact ⟨state, hst, hhit, hmiss⟩
  · cases hq.symm.trans hc

theorem answers_of_waiting {s' : ArpQueries} {id : Nat} {ipv4Addr : Ipv4Addr} {w : Waiting} {state : QueryState}
    (hq : s.WaitsAt id ipv4Addr w) (hst : s'.queries[id]? = some ⟨ipv4Addr, state⟩)
    (hsettles : s.Settles w (heard id) state) : s.Answers heard id s' := by
  refine ⟨fun a hc => ?_, fun a w' hc => ?_⟩
  · cases hq.symm.trans hc
  · cases hq.symm.trans hc
    exact ⟨state, hst, hsettles⟩

/-- Under the condition a poll goes through, answers as it should and keeps the others served. -/
theorem Sound.poll (h : Sound s heard) {id : Nat} {timerFirst : Nat → Bool} (halone : s.Alone (.poll id timerFirst)) :
    ∃ s', s.poll id timerFirst = some s' ∧ Sound s' heard ∧ s.Answers heard id s' := by
  have hothers : ∀ ipv4Addr, s.givesUp id timerFirst = some ipv4Addr → ∀ id' w', id' ≠ id → s.WaitsAt id' ipv4Addr w' →
      heard id' ≠ none := by
    intro ipv4Addr hg id' w' hne hw' hnone
    have hlt : id' ∈ List.range s.queries.length := List.mem_range.mpr (List.getElem?_eq_some_iff.mp hw').1
    have hno := halone ipv4Addr hg id' hlt hne
    rw [(unanswered_iff h hw').mpr hnone] at hno
    cases hno
  unfold ArpQueries.poll
  split
  next ipv4Addr hq =>
    split
    next linkAddr hget =>
      refine ⟨_, rfl, h.finish ipv4Addr h.live rfl rfl (by simp) (by simp),
        answers_of_created hq (getElem?_put hq) (fun l hl => ?_) fun hn => ?_⟩
      · rw [Option.some.inj (hget.symm.trans hl)]
      · cases hget.symm.trans hn
    next hget =>
      obtain ⟨waiters, hreg, -⟩ := ArpPeer.doWaitLinkAddr_miss hget
      obtain ⟨hnone, hsound⟩ := @Sound.register s heard h id ipv4Addr ⟨s.peer.arpConfig.retryCount,
        s.peer.clock + s.peer.arpConfig.requestTimeout, s.peer.channels.length⟩ hq hget rfl
      rw [hreg] at hsound ⊢
      obtain ⟨s', state, hr, hs', hst, hsettles⟩ := @Sound.resume _ _ hsound _ _ _ timerFirst (getElem?_put hq) 1 (by
        intro hlast _ id' w' hne hw'
        refine hothers ipv4Addr ?_ id' w' hne ?_
        · have hzero : s.peer.arpConfig.requestTimeout = 0 :=
            Nat.le_zero.mp (Nat.add_le_add_iff_left.mp (hlast.1.trans (Nat.le_add_right _ 0)))
          simp [givesUp, hq, hget, hzero]
        · rcases waitsAt_put hw' with ⟨rfl, -, -⟩ | ⟨-, hold⟩
          · exact absurd rfl hne
          · exact hold)
      rw [hnone] at hsettles
      refine ⟨s', (resume_put ..).symm.trans hr, hs', answers_of_created hq hst (fun l hl => ?_) fun _ => hsettles⟩
      cases hget.symm.trans hl
  next ipv4Addr w hq =>
    obtain ⟨s', state, hr, hs', hst, hsettles⟩ := @Sound.resume s heard h id ipv4Addr w timerFirst hq 0 (by
      intro hlast hwins
      refine hothers ipv4Addr ?_
      have hchan := (h.served id ipv4Addr w hq).channel
      unfold givesUp
      rw [hq]
      refine if_pos ⟨hlast, ?_⟩
      rcases hwins with hn | hall
      · rw [hchan, hn]
        exact .inl rfl
      · exact .inr (List.all_eq_true.mpr fun i hi => hall i (Nat.le_of_lt_succ (List.mem_range.mp hi))))
    exact ⟨s', hr, hs', answers_of_waiting hq hst hsettles⟩
  next hcreated hwaiting =>
    exact ⟨s, rfl, h, fun a hc => absurd hc (hcreated a), fun a w hc => absurd hc (hwaiting a w)⟩

theorem waitsFor_iff {id : Nat} {ipv4Addr : Ipv4Addr} :
    s.waitsFor id ipv4Addr = true ↔ ∃ w, s.WaitsAt id ipv4Addr w := by
  unfold waitsFor WaitsAt
  split
  next ipv4Addr' w hq => simp [hq]
  next hq => exact ⟨fun h => (by cases h), fun ⟨w, hw⟩ => absurd hw (hq ipv4Addr w)⟩

/-- A message that is accepted answers everybody who waits for its sender. -/
theorem Sound.receive (h : Sound s heard) (header : ArpHeader) :
    ∃ result p', s.peer.receive header = some (result, p') ∧
      Sound { s with peer := p' } (s.hear heard (.receive header)) := by
  obtain ⟨result, p', hr, hyes, hno⟩ := ArpPeer.receive_spec h.live header
  refine ⟨result, p', hr, ?_⟩
  have hhear : ∀ id, s.hear heard (.receive header) id =
      if s.peer.accepts header ∧ heard id = none ∧ s.waitsFor id header.senderProtocolAddr = true then
        some header.senderHardwareAddr
      else heard id := fun id => rfl
  by_cases hacc : s.peer.accepts header
  · have hans := hyes hacc
    have hqueue := ArpPeer.queue_of_remove hans.waiters
    have hnew : ∀ id, s.hear heard (.receive header) id ≠ none → heard id ≠ none ∨
        ∃ w, s.WaitsAt id header.senderProtocolAddr w := by
      intro id hne
      rw [hhear] at hne
      split at hne
      next hc => exact .inr (waitsFor_iff.mp hc.2.2)
      next => exact .inl hne
    refine ⟨hans.live, fun id ipv4Addr w hw => ?_, h.distinct, fun ipv4Addr rx hmem => ?_, fun id hh ipv4Addr hc => ?_,
      fun id hh => ?_⟩
    · obtain ⟨hch, hqu, hon⟩ := h.served id ipv4Addr w hw
      have honly : ∀ ipv4Addr', w.rx ∈ p'.queue ipv4Addr' → ipv4Addr' = ipv4Addr := by
        intro ipv4Addr' hmem
        rw [hqueue] at hmem
        split at hmem
        next => cases hmem
        next => exact hon ipv4Addr' hmem
      rw [hhear]
      by_cases ha : ipv4Addr = header.senderProtocolAddr
      · subst ipv4Addr
        have hwaits := waitsFor_iff.mpr ⟨w, hw⟩
        cases hh : heard id with
        | none =>
          rw [hh] at hch
          rw [if_pos ⟨hacc, rfl, hwaits⟩]
          refine ⟨?_, fun hn => (by cases hn), honly⟩
          show p'.channels[w.rx]? = _
          rw [hans.channels, Oneshot.getElem?_settleAll (by simp), if_pos (hqu hh), hch]
          rfl
        | some linkAddr =>
          rw [hh] at hch
          rw [if_neg (fun hc => (by cases hc.2.1))]
          refine ⟨?_, fun hn => (by cases hn), honly⟩
          show p'.channels[w.rx]? = _
          rw [hans.channels]
          exact Oneshot.getElem?_settleAll_of_ne (by simp) hch (by simp)
      · have hwaits : s.waitsFor id header.senderProtocolAddr ≠ true := by
          intro hwf
          obtain ⟨w', hw'⟩ := waitsFor_iff.mp hwf
          cases hw.symm.trans hw'
          exact ha rfl
        rw [if_neg (fun hc => hwaits hc.2.2)]
        refine ⟨?_, fun hn => ?_, honly⟩
        · show p'.channels[w.rx]? = _
          rw [hans.channels, Oneshot.getElem?_settleAll (by simp), if_neg (fun hmem => ha (hon _ hmem).symm)]
          exact hch
        · show w.rx ∈ p'.queue ipv4Addr
          rw [hqueue, if_neg ha]
          exact hqu hn
    · change rx ∈ p'.queue ipv4Addr at hmem
      show rx < p'.channels.length
      rw [hans.channels, Oneshot.length_settleAll]
      rw [hqueue] at hmem
      split at hmem
      next => cases hmem
      next => exact h.inside ipv4Addr rx hmem
    · rcases hnew id hh with hold | ⟨w, hw⟩
      · exact h.fresh id hold ipv4Addr hc
      · cases hw.symm.trans hc
    · rcases hnew id hh with hold | ⟨w, hw⟩
      · exact h.named id hold
      · exact (List.getElem?_eq_some_iff.mp hw).1
  · have hsame : s.hear heard (.receive header) = heard := funext fun id => if_neg fun hc => hacc hc.1
    rw [hno hacc, hsame]
    exact h

theorem Sound.step (h : Sound s heard) {e : Event} (halone : s.Alone e) :
    ∃ s', s.step e = some s' ∧ Sound s' (s.hear heard e) := by
  cases e with
  | query ipv4Addr => exact ⟨_, rfl, h.query ipv4Addr⟩
  | poll id timerFirst =>
    obtain ⟨s', hs', hsound, -⟩ := h.poll halone
    exact ⟨s', hs', hsound⟩
  | drop id => exact ⟨_, rfl, h.drop id⟩
  | receive header =>
    obtain ⟨result, p', hr, hsound⟩ := h.receive header
    exact ⟨{ s with peer := p' }, by rw [ArpQueries.step, hr]; rfl, hsound⟩
  | advanceClock elapsed =>
    exact ⟨_, rfl, ⟨h.live.ttl, Nat.le_trans h.live.clock (Nat.le_add_right ..)⟩,
      fun id a w hw => ⟨(h.served id a w hw).1, (h.served id a w hw).2, (h.served id a w hw).3⟩, h.distinct, h.inside,
      h.fresh, h.named⟩
  | background =>
    obtain ⟨cache, hc, hlive⟩ := h.live.advanceClock
    refine ⟨{ s with peer := { s.peer with cache } }, ?_, hlive,
      fun id a w hw => ⟨(h.served id a w hw).1, (h.served id a w hw).2, (h.served id a w hw).3⟩, h.distinct, h.inside,
      h.fresh, h.named⟩
    rw [ArpQueries.step, ArpPeer.background, hc]
    rfl

theorem sound_start {clock : Instant} {localLinkAddr : MacAddress} {localIpv4Addr : Ipv4Addr} {arpConfig : ArpConfig}
    (h : start clock localLinkAddr localIpv4Addr arpConfig = some s) : Sound s fun _ => none := by
  obtain ⟨peer, hnew, rfl⟩ := Option.map_eq_some_iff.mp h
  obtain ⟨cache, hcache, hpeer⟩ := Option.bind_eq_some_iff.mp hnew
  obtain rfl := Option.some.inj hpeer
  refine ⟨ArpCache.live_new hcache, fun id a w hw => (by cases hw), fun id id' a a' w w' hw => (by cases hw),
    fun a rx hmem => ?_, fun id hh => absurd rfl hh, fun id hh => absurd rfl hh⟩
  have hempty : (⟨clock, localLinkAddr, localIpv4Addr, cache, ∅, [], arpConfig, []⟩ : ArpPeer).queue a = [] := by
    rw [ArpPeer.queue, HashMap.get_empty]
    rfl
  rw [hempty] at hmem
  cases hmem

/-- A run in which every query that gives up is alone goes through, and then each poll answers as it should. -/
theorem queries_answered {clock : Instant} {localLinkAddr : MacAddress} {localIpv4Addr : Ipv4Addr}
    {arpConfig : ArpConfig} {s₀ : ArpQueries} (h₀ : start clock localLinkAddr localIpv4Addr arpConfig = some s₀)
    (es : List Event)
    (h : Runs.Admits watch (fun s e => s.1.Alone e) (s₀, fun _ => none) es) :
    ∃ s heard, Runs.run watch (s₀, fun _ => none) es = some (s, heard) ∧
      ∀ id timerFirst, s.Alone (.poll id timerFirst) →
      ∃ s', s.step (.poll id timerFirst) = some s' ∧ s.Answers heard id s' := by
  have hstep : ∀ (s : ArpQueries × Heard) e, Sound s.1 s.2 → s.1.Alone e →
      ∃ s', watch s e = some s' ∧ Sound s'.1 s'.2 := by
    intro s e hs he
    obtain ⟨s', hs', hsound⟩ := hs.step he
    exact ⟨(s', s.1.hear s.2 e), by rw [watch, hs']; rfl, hsound⟩
  obtain ⟨⟨s, heard⟩, hrun, hsound⟩ := Runs.run_invariant hstep (sound_start h₀) h
  refine ⟨s, heard, hrun, fun id timerFirst halone => ?_⟩
  obtain ⟨s', hs', -, hans⟩ := Sound.poll hsound halone
  exact ⟨s', hs', hans⟩

def twoSeconds : ArpConfig := ⟨600, 2, 0, ∅, false⟩

def twoSecondsStart : ArpQueries :=
  ⟨⟨0, ⟨2, 0, 0, 0, 0, 1⟩, ⟨10, 0, 0, 1⟩, ⟨⟨∅, ∅, some 600, 0⟩, false⟩, ∅, [], twoSeconds, []⟩, []⟩

/-- The second query is one second younger; the first one gives up. -/
def overlap : List Event :=
  [.query ⟨10, 0, 0, 2⟩, .poll 0 fun _ => false, .advanceClock 1, .query ⟨10, 0, 0, 2⟩, .poll 1 fun _ => false,
    .advanceClock 1, .poll 0 fun _ => false]

/-- The next poll of the second query panics, with one second to go. -/
theorem overlap_panics :
    (Runs.run step twoSecondsStart overlap).isSome = true ∧
      Runs.run step twoSecondsStart (overlap ++ [.poll 1 fun _ => false]) = none := by
  constructor
  · decide
  · apply Option.isNone_iff_eq_none.mp
    decide

/-- With a reply before the first query gives up both are fine. -/
theorem queries_answered_overlap : ∃ s heard, Runs.run watch (twoSecondsStart, fun _ => none)
    (overlap.take 5 ++ [.receive ⟨.reply, ⟨2, 0, 0, 0, 0, 2⟩, ⟨10, 0, 0, 2⟩, ⟨2, 0, 0, 0, 0, 1⟩, ⟨10, 0, 0, 1⟩⟩,
      .advanceClock 1, .poll 0 fun _ => true]) = some (s, heard) ∧
    ∀ id timerFirst, s.Alone (.poll id timerFirst) →
      ∃ s', s.step (.poll id timerFirst) = some s' ∧ s.Answers heard id s' := by
  have h₀ : start 0 ⟨2, 0, 0, 0, 0, 1⟩ ⟨10, 0, 0, 1⟩ twoSeconds = some twoSecondsStart := rfl
  exact queries_answered h₀ _ (by decide)

end ArpQueries

end Capybara
