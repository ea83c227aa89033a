import Capybara.Basics
import Capybara.Lib.Runs

namespace Capybara

structure Record (V : Type) where
  value : V
  expiration : Option Instant
  deriving DecidableEq, Repr

def Record.hasExpired {V : Type} (r : Record V) (now : Instant) : Bool :=
  match r.expiration with
  | some e => decide (e ≤ now)
  | none => false

structure HashTtlCache (K V : Type) [DecidableEq K] where
  map : HashMap K (Record V)
  graveyard : HashMap K V
  defaultTtl : Option Duration
  clock : Instant

namespace HashTtlCache

variable {K V : Type} [DecidableEq K]

/-- A TTL of zero panics. -/
def new (now : Instant) (defaultTtl : Option Duration) : Option (HashTtlCache K V) :=
  if defaultTtl = some 0 then none else some ⟨∅, ∅, defaultTtl, now⟩

def clear (c : HashTtlCache K V) : HashTtlCache K V := { c with graveyard := ∅, map := ∅ }

def advanceClock (c : HashTtlCache K V) (now : Instant) : Option (HashTtlCache K V) :=
  if c.clock ≤ now then some { c with clock := now } else none

def deadEntries (c : HashTtlCache K V) : List K :=
  (c.map.entries.filter fun e => e.2.hasExpired c.clock).map fun e => e.1

/-- `remove_entry(&k).unwrap()`, and the value goes to the graveyard. -/
def bury (c : HashTtlCache K V) (k : K) : Option (HashTtlCache K V) := do
  let r ← c.map.get k
  some { c with map := c.map.remove k, graveyard := c.graveyard.insert k r.value }

def cleanup (c : HashTtlCache K V) : Option (HashTtlCache K V) := c.deadEntries.foldlM bury c

def insertWithTtl (c : HashTtlCache K V) (key : K) (value : V) (ttl : Option Duration) :
    Option (Option V × HashTtlCache K V) :=
  if ttl = some 0 then none
  else do
    let expiration := ttl.map (c.clock + ·)
    let c ← c.cleanup
    some ((c.map.get key).map fun r => r.value, { c with map := c.map.insert key ⟨value, expiration⟩ })

def insert (c : HashTtlCache K V) (key : K) (value : V) : Option (Option V × HashTtlCache K V) :=
  c.insertWithTtl key value c.defaultTtl

def get (c : HashTtlCache K V) (key : K) : Option V := (c.map.get key).map fun r => r.value

def iter (c : HashTtlCache K V) : List (K × V) :=
  c.map.entries.filterMap fun e => if e.2.hasExpired c.clock then none else some (e.1, e.2.value)

inductive Event (K V : Type)
  | insert (key : K) (value : V)
  | insertWithTtl (key : K) (value : V) (ttl : Option Duration)
  | advanceClock (now : Instant)
  | cleanup
  | clear
  deriving Repr

def step (c : HashTtlCache K V) : Event K V → Option (HashTtlCache K V)
  | .insert key value => (c.insert key value).map fun r => r.2
  | .insertWithTtl key value ttl => (c.insertWithTtl key value ttl).map fun r => r.2
  | .advanceClock now => c.advanceClock now
  | .cleanup => c.cleanup
  | .clear => some c.clear

end HashTtlCache

/-- What was inserted last under each key since the last clear, and whether a collection has come over it after its
time had run out. -/
structure Ledger (K V : Type) where
  last : K → Option (Record V)
  collected : K → Bool
  defaultTtl : Option Duration
  clock : Instant

namespace Ledger

variable {K V : Type} [DecidableEq K]

def new (now : Instant) (defaultTtl : Option Duration) : Ledger K V := ⟨fun _ => none, fun _ => false, defaultTtl, now⟩

def elapsed (l : Ledger K V) (k : K) : Bool := (l.last k).any fun r => r.hasExpired l.clock

def collect (l : Ledger K V) : Ledger K V := { l with collected := fun k => l.collected k || l.elapsed k }

def put (l : Ledger K V) (key : K) (value : V) (ttl : Option Duration) : Ledger K V :=
  { l.collect with
    last := fun k => if k = key then some ⟨value, ttl.map (l.clock + ·)⟩ else l.last k
    collected := fun k => if k = key then false else l.collect.collected k }

def step (l : Ledger K V) : HashTtlCache.Event K V → Ledger K V
  | .insert key value => l.put key value l.defaultTtl
  | .insertWithTtl key value ttl => l.put key value ttl
  | .advanceClock now => { l with clock := now }
  | .cleanup => l.collect
  | .clear => { l with last := fun _ => none, collected := fun _ => false }

def ofRun (now : Instant) (defaultTtl : Option Duration) (es : List (HashTtlCache.Event K V)) : Ledger K V :=
  es.foldl step (.new now defaultTtl)

/-- The last value, as long as its time has not run out. -/
def answer (l : Ledger K V) (k : K) : Option V :=
  (l.last k).bind fun r => if r.hasExpired l.clock then none else some r.value

/-- The time of the last insertion has run out and no collection has run since. -/
def Overdue (l : Ledger K V) (k : K) : Prop := l.elapsed k = true ∧ l.collected k = false

instance (l : Ledger K V) (k : K) : Decidable (l.Overdue k) := inferInstanceAs (Decidable (_ ∧ _))

end Ledger

namespace HashTtlCache

variable {K V : Type} [DecidableEq K]

theorem mem_deadEntries_iff (c : HashTtlCache K V) (k : K) :
    k ∈ c.deadEntries ↔ ∃ r, c.map.get k = some r ∧ r.hasExpired c.clock = true := by
  constructor
  · intro h
    obtain ⟨e, he, rfl⟩ := List.mem_map.mp h
    obtain ⟨hm, hx⟩ := List.mem_filter.mp he
    exact ⟨e.2, AList.mem_lookup_iff.mpr hm, hx⟩
  · rintro ⟨r, hr, hx⟩
    exact List.mem_map.mpr ⟨⟨k, r⟩, List.mem_filter.mpr ⟨AList.mem_lookup_iff.mp hr, hx⟩, rfl⟩

theorem nodup_deadEntries (c : HashTtlCache K V) : c.deadEntries.Nodup :=
  c.map.nodupKeys.sublist List.filter_sublist

/-- Burying entries that are there, each once, goes through. -/
theorem foldlM_bury {dead : List K} (hd : dead.Nodup) (c : HashTtlCache K V)
    (h : ∀ k ∈ dead, (c.map.get k).isSome = true) :
    ∃ c', dead.foldlM bury c = some c' ∧ c'.clock = c.clock ∧ c'.defaultTtl = c.defaultTtl ∧
      ∀ k, c'.map.get k = if k ∈ dead then none else c.map.get k := by
  induction dead generalizing c with
  | nil => exact ⟨c, rfl, rfl, rfl, fun k => (if_neg (List.not_mem_nil)).symm⟩
  | cons key dead ih =>
    obtain ⟨hkey, hdead⟩ := List.nodup_cons.mp hd
    obtain ⟨r, hr⟩ := Option.isSome_iff_exists.mp (h key List.mem_cons_self)
    have hbury : c.bury key =
        some { c with map := c.map.remove key, graveyard := c.graveyard.insert key r.value } := by
      rw [bury, hr]
      rfl
    obtain ⟨c', hc', hclock, httl, hget⟩ := ih hdead
      { c with map := c.map.remove key, graveyard := c.graveyard.insert key r.value } (by
        intro k hk
        have hne : k ≠ key := fun he => hkey (he ▸ hk)
        rw [HashMap.get_remove, if_neg hne]
        exact h k (List.mem_cons_of_mem _ hk))
    refine ⟨c', ?_, hclock, httl, fun k => ?_⟩
    · rw [List.foldlM_cons, hbury]
      exact hc'
    · rw [hget, HashMap.get_remove]
      by_cases he : k = key
      · simp [he]
      · simp [he]

/-- A collection removes what has expired and nothing else. -/
theorem cleanup_spec (c : HashTtlCache K V) :
    ∃ c', c.cleanup = some c' ∧ c'.clock = c.clock ∧ c'.defaultTtl = c.defaultTtl ∧
      ∀ k, c'.map.get k = (c.map.get k).bind fun r => if r.hasExpired c.clock then none else some r := by
  have hthere : ∀ k ∈ c.deadEntries, (c.map.get k).isSome = true := by
    intro k hk
    obtain ⟨r, hr, -⟩ := (mem_deadEntries_iff c k).mp hk
    rw [hr]
    rfl
  obtain ⟨c', hc', hclock, httl, hget⟩ := foldlM_bury (nodup_deadEntries c) c hthere
  refine ⟨c', hc', hclock, httl, fun k => ?_⟩
  have hmem := mem_deadEntries_iff c k
  rw [hget]
  cases hr : c.map.get k with
  | none => simp
  | some r =>
    rw [hr] at hmem
    by_cases hx : r.hasExpired c.clock = true
    · rw [if_pos (hmem.mpr ⟨r, rfl, hx⟩), Option.bind_some, if_pos hx]
    · have hnot : k ∉ c.deadEntries := by
        intro hk
        obtain ⟨r', hr', hx'⟩ := hmem.mp hk
        exact hx (Option.some.inj hr' ▸ hx')
      rw [if_neg hnot, Option.bind_some, if_neg hx]

theorem mem_iter_iff (c : HashTtlCache K V) (k : K) (v : V) :
    (k, v) ∈ c.iter ↔ ∃ r, c.map.get k = some r ∧ r.hasExpired c.clock = false ∧ r.value = v := by
  constructor
  · intro h
    obtain ⟨e, he, hv⟩ := List.mem_filterMap.mp h
    split at hv
    next => cases hv
    next hx =>
      obtain ⟨rfl, rfl⟩ := Prod.mk.inj (Option.some.inj hv)
      exact ⟨e.2, AList.mem_lookup_iff.mpr he, eq_false_of_ne_true hx, rfl⟩
  · rintro ⟨r, hr, hx, rfl⟩
    refine List.mem_filterMap.mpr ⟨⟨k, r⟩, AList.mem_lookup_iff.mp hr, ?_⟩
    rw [if_neg (by rw [hx]; exact Bool.false_ne_true)]

/-- The cache holds the last insertions that have not been collected. -/
structure Refines (c : HashTtlCache K V) (l : Ledger K V) : Prop where
  clock : c.clock = l.clock
  defaultTtl : c.defaultTtl = l.defaultTtl
  map : ∀ k, c.map.get k = if l.collected k then none else l.last k
  collected : ∀ k, l.collected k = true → l.elapsed k = true

theorem refines_new {now : Instant} {ttl : Option Duration} {c : HashTtlCache K V} (h : new now ttl = some c) :
    Refines c (.new now ttl) := by
  unfold new at h
  split at h
  next => cases h
  next =>
    obtain rfl := Option.some.inj h
    exact ⟨rfl, rfl, fun k => rfl, fun k hk => (by cases hk)⟩

theorem Refines.cleanup {c c' : HashTtlCache K V} {l : Ledger K V} (h : Refines c l) (hc : c.cleanup = some c') :
    Refines c' l.collect := by
  obtain ⟨c'', hc'', hclock, httl, hget⟩ := cleanup_spec c
  obtain rfl := Option.some.inj (hc''.symm.trans hc)
  refine ⟨hclock.trans h.clock, httl.trans h.defaultTtl, fun k => ?_, fun k hk => ?_⟩
  · rw [hget, h.map, h.clock]
    show _ = if (l.collected k || l.elapsed k) = true then none else l.last k
    cases hcol : l.collected k with
    | true => rfl
    | false =>
      cases hlast : l.last k with
      | none => simp
      | some r => simp [Ledger.elapsed, hlast]
  · rcases Bool.or_eq_true_iff.mp hk with hcol | hel
    · exact h.collected k hcol
    · exact hel

theorem Refines.insertWithTtl {c : HashTtlCache K V} {l : Ledger K V} {key : K} {value : V} {ttl : Option Duration}
    {result : Option V × HashTtlCache K V} (h : Refines c l) (hc : c.insertWithTtl key value ttl = some result) :
    Refines result.2 (l.put key value ttl) := by
  unfold HashTtlCache.insertWithTtl at hc
  split at hc
  next => cases hc
  next hpos =>
    obtain ⟨c', hclean, hc⟩ := Option.bind_eq_some_iff.mp hc
    obtain rfl := Option.some.inj hc
    have hcollect := h.cleanup hclean
    refine ⟨hcollect.clock, hcollect.defaultTtl, fun k => ?_, fun k hk => ?_⟩
    · show (c'.map.insert key _).get k = if (if k = key then false else l.collect.collected k) = true then none
        else if k = key then some ⟨value, ttl.map (l.clock + ·)⟩ else l.last k
      rw [HashMap.get_insert, hcollect.map, h.clock]
      by_cases he : k = key
      · simp [he]
      · simp only [he, if_false]
        rfl
    · change (if k = key then false else l.collect.collected k) = true at hk
      show (if k = key then some ⟨value, ttl.map (l.clock + ·)⟩ else l.last k).any
        (fun r => r.hasExpired l.clock) = true
      by_cases he : k = key
      · rw [if_pos he] at hk
        cases hk
      · rw [if_neg he] at hk ⊢
        exact hcollect.collected k hk

theorem Record.hasExpired_mono {r : Record V} {now now' : Instant} (h : now ≤ now')
    (hx : r.hasExpired now = true) : r.hasExpired now' = true := by
  unfold Record.hasExpired at hx ⊢
  split at hx
  next e _ => exact decide_eq_true (Nat.le_trans (of_decide_eq_true hx) h)
  next => cases hx

theorem Refines.step {c c' : HashTtlCache K V} {l : Ledger K V} {e : Event K V} (h : Refines c l)
    (hc : c.step e = some c') : Refines c' (l.step e) := by
  cases e with
  | insert key value =>
    obtain ⟨result, hr, rfl⟩ := Option.map_eq_some_iff.mp hc
    have hput := h.insertWithTtl hr
    rw [h.defaultTtl] at hput
    exact hput
  | insertWithTtl key value ttl =>
    obtain ⟨result, hr, rfl⟩ := Option.map_eq_some_iff.mp hc
    exact h.insertWithTtl hr
  | advanceClock now =>
    change (if c.clock ≤ now then some { c with clock := now } else none) = some c' at hc
    split at hc
    next hle =>
      obtain rfl := Option.some.inj hc
      refine ⟨rfl, h.defaultTtl, h.map, fun k hk => ?_⟩
      have hel := h.collected k hk
      rw [h.clock] at hle
      change (l.last k).any (fun r => r.hasExpired l.clock) = true at hel
      show (l.last k).any (fun r => r.hasExpired now) = true
      cases hlast : l.last k with
      | none =>
        rw [hlast] at hel
        cases hel
      | some r =>
        rw [hlast] at hel
        exact Record.hasExpired_mono hle hel
    next => cases hc
  | cleanup => exact h.cleanup hc
  | clear =>
    obtain rfl := Option.some.inj hc
    exact ⟨h.clock, h.defaultTtl, fun k => rfl, fun k hk => (by cases hk)⟩

theorem Refines.run {c c' : HashTtlCache K V} {l : Ledger K V} {es : List (Event K V)} (h : Refines c l)
    (hc : Runs.run HashTtlCache.step c es = some c') : Refines c' (es.foldl Ledger.step l) := by
  induction es generalizing c l with
  | nil => exact Option.some.inj hc ▸ h
  | cons e es ih =>
    obtain ⟨c₁, he, hr⟩ := Option.bind_eq_some_iff.mp hc
    exact ih (h.step he) hr

/-- A lookup gives the answer except for overdue keys, and the iterator always does. -/
theorem Refines.answers {c : HashTtlCache K V} {l : Ledger K V} (h : Refines c l) (k : K) :
    (c.get k = l.answer k ↔ ¬l.Overdue k) ∧ ∀ v, (k, v) ∈ c.iter ↔ l.answer k = some v := by
  have hcol := h.collected k
  simp only [mem_iter_iff, h.clock, get, h.map k]
  unfold Ledger.answer Ledger.Overdue
  unfold Ledger.elapsed at hcol ⊢
  cases hlast : l.last k with
  | none => simp
  | some r =>
    rw [hlast] at hcol
    cases hc : l.collected k with
    | true =>
      have hx := hcol hc
      change r.hasExpired l.clock = true at hx
      simp [hx]
    | false =>
      cases hx : r.hasExpired l.clock <;> simp [hx]

/-- The state after the calls on a new cache. -/
def after (now : Instant) (defaultTtl : Option Duration) (es : List (Event K V)) : Option (HashTtlCache K V) :=
  (new now defaultTtl).bind fun c => Runs.run step c es

theorem refines_after {now : Instant} {ttl : Option Duration} {es : List (Event K V)} {c : HashTtlCache K V}
    (h : after now ttl es = some c) : Refines c (.ofRun now ttl es) := by
  obtain ⟨c₀, hn, hr⟩ := Option.bind_eq_some_iff.mp h
  exact (refines_new hn).run hr

end HashTtlCache

/-- The cache of link addresses; one that is disabled answers with zeros. -/
structure ArpCache where
  cache : HashTtlCache Ipv4Addr MacAddress
  disable : Bool

def ArpCache.get (c : ArpCache) (ipv4Addr : Ipv4Addr) : Option MacAddress :=
  if c.disable then some ⟨0, 0, 0, 0, 0, 0⟩ else c.cache.get ipv4Addr

/-- In every state that calls lead to, a lookup and the iterator agree on the live entries exactly for the keys that are
not overdue; for these the address that is returned has not expired. -/
theorem ttlCache_answers {K V : Type} [DecidableEq K] (now : Instant) (ttl : Option Duration)
    (es : List (HashTtlCache.Event K V)) (c : HashTtlCache K V) (h : HashTtlCache.after now ttl es = some c) (k : K) :
    ((c.get k = (Ledger.ofRun now ttl es).answer k ↔ ¬(Ledger.ofRun now ttl es).Overdue k) ∧
      (∀ v, (k, v) ∈ c.iter ↔ (Ledger.ofRun now ttl es).answer k = some v) ∧
      ((∀ v, (k, v) ∈ c.iter ↔ c.get k = some v) ↔ ¬(Ledger.ofRun now ttl es).Overdue k)) ∧
    ∀ es c, HashTtlCache.after now ttl es = some c → ∀ ipv4Addr,
      ((⟨c, false⟩ : ArpCache).get ipv4Addr = (Ledger.ofRun now ttl es).answer ipv4Addr ↔
        ¬(Ledger.ofRun now ttl es).Overdue ipv4Addr) := by
  refine ⟨?_, fun es c h ipv4Addr => ((HashTtlCache.refines_after h).answers ipv4Addr).1⟩
  obtain ⟨hget, hiter⟩ := (HashTtlCache.refines_after h).answers k
  refine ⟨hget, hiter, ?_⟩
  rw [← hget]
  constructor
  · intro hagree
    apply Option.ext
    intro v
    rw [← hiter v, hagree v]
  · intro heq v
    rw [hiter v, heq]

/-- An address is inserted for five seconds and asked for after ten. -/
def staleRun : List (HashTtlCache.Event Ipv4Addr MacAddress) :=
  [.insert ⟨10, 0, 0, 2⟩ ⟨2, 0, 0, 0, 0, 2⟩, .advanceClock 10]

/-- The lookup answers and the iterator does not. -/
theorem staleRun_answers : ((HashTtlCache.after 0 (some 5) staleRun).any fun c =>
    decide ((⟨c, false⟩ : ArpCache).get ⟨10, 0, 0, 2⟩ = some ⟨2, 0, 0, 0, 0, 2⟩) && c.iter.isEmpty) = true ∧
      (Ledger.ofRun 0 (some 5) staleRun).answer ⟨10, 0, 0, 2⟩ = none := by
  decide

/-- Once an insertion of another address has cleaned up, the two agree. -/
theorem ttlCache_answers_sample : ∃ c, HashTtlCache.after 0 (some 5)
    (staleRun ++ [.insert ⟨10, 0, 0, 3⟩ ⟨2, 0, 0, 0, 0, 3⟩]) = some c ∧ c.get ⟨10, 0, 0, 2⟩ = none ∧
      c.get ⟨10, 0, 0, 3⟩ = some ⟨2, 0, 0, 0, 0, 3⟩ := by
  have hrun : ((HashTtlCache.after 0 (some 5)
      (staleRun ++ [.insert ⟨10, 0, 0, 3⟩ ⟨2, 0, 0, 0, 0, 3⟩])).isSome) = true := by decide
  obtain ⟨c, hc⟩ := Option.isSome_iff_exists.mp hrun
  have h := ttlCache_answers 0 (some 5) (staleRun ++ [.insert ⟨10, 0, 0, 3⟩ ⟨2, 0, 0, 0, 0, 3⟩]) c hc
  exact ⟨c, hc, (h ⟨10, 0, 0, 2⟩).1.1.mpr (by decide), (h ⟨10, 0, 0, 3⟩).1.1.mpr (by decide)⟩

end Capybara
