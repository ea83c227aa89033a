import Capybara.Defragmenter
import Capybara.Lib.Token
import Capybara.StateRoundTrip
import Mathlib.Data.List.Perm.Subperm

namespace Capybara

open Token TcpMigDefragmenter

inductive Site
  | frontend
  | backend
  deriving DecidableEq, Repr

def Site.other : Site → Site
  | .frontend => .backend
  | .backend => .frontend

/-- A message on its way, with the server that sent it. -/
structure Flight where
  sender : Site
  segment : TcpMigSegment
  deriving DecidableEq, Repr

/-- A place for a connection: an entry of `established`, or the ready queue of a listening socket. -/
inductive Spot
  | established (key : Endpoints)
  | ready (local_ : SocketAddrV4)
  deriving DecidableEq, Repr

/-- What of a state does not depend on the server that has it. -/
def ControlBlockState.portable (s : ControlBlockState) : ControlBlockState :=
  { s.resetTx with local_ := ⟨⟨0, 0, 0, 0⟩, 0⟩ }

/-- What two servers and the network between them have of the connection of one client: where it is, the fragments of
its state on their way, the defragmenters of those that wait for a state, and the states that went out and came in,
oldest first. -/
structure Custody where
  held : Site × Spot → Nat
  flights : List Flight
  awaited : Site → Option TcpMigDefragmenter
  exported : List ControlBlockState
  imported : List ControlBlockState

theorem ControlBlockState.portable_received (s : ControlBlockState) (local_ : SocketAddrV4) :
    ({ s.resetTx with local_ := local_ } : ControlBlockState).portable = s.portable := by
  have hqueue : (s.sender.unackedQueue.map UnackedSegment.resetTx).map UnackedSegment.resetTx =
      s.sender.unackedQueue.map UnackedSegment.resetTx := by
    rw [List.map_map]
    rfl
  simp only [portable, resetTx, SenderState.resetTx, hqueue]

namespace Custody

/-- Nothing of the state is on its way. -/
structure Rests (v : Custody) : Prop where
  sole : Sole v.held
  flights : v.flights = []
  awaited : ∀ site d, v.awaited site = some d → d = .new
  exported : v.exported = v.imported

/-- The state went out and has not come in: each of its fragments is on its way, stored at the other server or lost. -/
structure Travels (v : Custody) (client : SocketAddrV4) (sender : Site) (message : TcpMigSegment) (state : TcpState)
    (way seen : List Nat) : Prop where
  gone : Gone v.held
  count_lt : message.fragmentCount < 2 ^ 16
  data : message.data = state.encode
  fits : state.cb.Fits
  remote : state.cb.remote = client
  flights : v.flights.Perm (way.map fun k => ⟨sender, message.fragment k⟩)
  nodup : (way ++ seen).Nodup
  bound : ∀ k ∈ way ++ seen, k < message.fragmentCount
  stored : ∀ d, v.awaited sender.other = some d →
    Stored message.data message.fragmentCount seen d ∧ KnowsTotal message.fragmentCount seen d
  awaited : ∀ d, v.awaited sender = some d → d = .new
  exported : v.exported = v.imported ++ [state.cb.portable]

def Safe (v : Custody) (client : SocketAddrV4) : Prop :=
  v.Rests ∨ ∃ sender message state way seen, v.Travels client sender message state way seen

/-- No fragment and no stored part is new. -/
structure Fades (v v' : Custody) : Prop where
  flights : v'.flights.Subperm v.flights
  awaited : ∀ site d, v'.awaited site = some d → d = .new ∨ v.awaited site = some d
  exported : v'.exported = v.exported
  imported : v'.imported = v.imported

section

variable {v v' : Custody} {client : SocketAddrV4} {sender : Site} {message : TcpMigSegment} {state : TcpState}
  {way seen : List Nat} {k : Nat}

theorem Rests.fades (h : v.Rests) (hf : v.Fades v') (hsole : Sole v'.held) : v'.Rests where
  sole := hsole
  flights := by
    have hempty := hf.flights
    rw [h.flights] at hempty
    exact List.subperm_nil.mp hempty
  awaited := by
    intro site d hd
    rcases hf.awaited site d hd with hnew | hold
    · exact hnew
    · exact h.awaited site d hold
  exported := by rw [hf.exported, hf.imported, h.exported]

theorem stored_start (message : TcpMigSegment) :
    Stored message.data message.fragmentCount [] .new ∧ KnowsTotal message.fragmentCount [] .new := by
  refine ⟨stored_new _ _, ?_⟩
  rw [KnowsTotal, if_neg List.not_mem_nil]
  rfl

/-- The stored parts go with the migration that had them. -/
theorem Travels.fades (h : v.Travels client sender message state way seen) (hf : v.Fades v')
    (hheld : ∀ p, v'.held p ≤ v.held p) : ∃ way' seen', v'.Travels client sender message state way' seen' := by
  obtain ⟨flights, hflights, hsub⟩ := hf.flights.trans h.flights.subperm
  obtain ⟨way', hway, rfl⟩ := List.sublist_map_iff.mp hsub
  have hnodup : ∀ seen', List.Sublist seen' seen → (way' ++ seen').Nodup :=
    fun seen' hseen => h.nodup.sublist (hway.append hseen)
  have hbound : ∀ seen', List.Sublist seen' seen → ∀ k ∈ way' ++ seen', k < message.fragmentCount :=
    fun seen' hseen k hk => h.bound k ((hway.append hseen).subset hk)
  have hawaited : ∀ d, v'.awaited sender = some d → d = .new := by
    intro d hd
    rcases hf.awaited sender d hd with hnew | hold
    · exact hnew
    · exact h.awaited d hold
  have hexported : v'.exported = v'.imported ++ [state.cb.portable] := by rw [hf.exported, hf.imported, h.exported]
  have hgone := h.gone.mono hheld
  by_cases hkept : ∀ d, v'.awaited sender.other = some d → v.awaited sender.other = some d
  · exact ⟨way', seen, hgone, h.count_lt, h.data, h.fits, h.remote, hflights.symm, hnodup seen (.refl _),
      hbound seen (.refl _), fun d hd => h.stored d (hkept d hd), hawaited, hexported⟩
  · refine ⟨way', [], hgone, h.count_lt, h.data, h.fits, h.remote, hflights.symm, hnodup [] (List.nil_sublist _),
      hbound [] (List.nil_sublist _), fun d hd => ?_, hawaited, hexported⟩
    have hnew : d = .new := by
      rcases hf.awaited sender.other d hd with hnew | hold
      · exact hnew
      · refine absurd (fun d' hd' => ?_) hkept
        rw [Option.some.inj (hd'.symm.trans hd)]
        exact hold
    rw [hnew]
    exact stored_start message

theorem Safe.fades (h : v.Safe client) (hf : v.Fades v') (hheld : ∀ p, v'.held p ≤ v.held p) : v'.Safe client := by
  rcases h with hrests | ⟨sender, message, state, way, seen, htravels⟩
  · exact .inl (hrests.fades hf (hrests.sole.mono hheld))
  · obtain ⟨way', seen', htravels'⟩ := htravels.fades hf hheld
    exact .inr ⟨sender, message, state, way', seen', htravels'⟩

/-- What is somewhere is not on its way. -/
theorem Safe.rests (h : v.Safe client) {p : Site × Spot} (hp : 0 < v.held p) : v.Rests := by
  rcases h with hrests | ⟨sender, message, state, way, seen, htravels⟩
  · exact hrests
  · have hzero := htravels.gone p
    omega

theorem Safe.moves (h : v.Safe client) (hf : v.Fades v') {p q : Site × Spot} (hne : p ≠ q)
    (hp : v'.held p + 1 ≤ v.held p) (hq : v'.held q ≤ v.held q + 1) (hheld : ∀ r, r ≠ q → v'.held r ≤ v.held r) :
    v'.Safe client := by
  have hrests := h.rests (p := p) (by omega)
  exact .inl (hrests.fades hf (hrests.sole.move hne hp hq hheld))

/-- The connection is taken from its place, and its state goes out. -/
theorem Safe.exports (h : v.Safe client) {p : Site × Spot} (hp : v'.held p + 1 ≤ v.held p)
    (hheld : ∀ r, v'.held r ≤ v.held r) (hcount : message.fragmentCount < 2 ^ 16) (hdata : message.data = state.encode)
    (hfits : state.cb.Fits) (hremote : state.cb.remote = client)
    (hflights : v'.flights = v.flights ++ (List.range message.fragmentCount).map fun k => ⟨sender, message.fragment k⟩)
    (hawaited : ∀ site d, v'.awaited site = some d → d = .new ∨ v.awaited site = some d)
    (hexported : v'.exported = v.exported ++ [state.cb.portable]) (himported : v'.imported = v.imported) :
    v'.Safe client := by
  have hrests := h.rests (p := p) (by omega)
  have hnew : ∀ site d, v'.awaited site = some d → d = .new := by
    intro site d hd
    rcases hawaited site d hd with hnew | hold
    · exact hnew
    · exact hrests.awaited site d hold
  refine .inr ⟨sender, message, state, List.range message.fragmentCount, [], hrests.sole.take hp hheld, hcount, hdata,
    hfits, hremote, ?_, ?_, ?_, ?_, hnew sender, ?_⟩
  · rw [hflights, hrests.flights]
    exact .refl _
  · rw [List.append_nil]
    exact List.nodup_range
  · intro k hk
    rw [List.append_nil] at hk
    exact List.mem_range.mp hk
  · intro d hd
    rw [hnew sender.other d hd]
    exact stored_start message
  · rw [hexported, himported, hrests.exported]

/-- A fragment that arrives is one of the state on its way. -/
theorem Safe.arrives (h : v.Safe client) {flight : Flight} (hf : flight ∈ v.flights) :
    ∃ message state k way seen, flight.segment = message.fragment k ∧
      v.Travels client flight.sender message state (k :: way) seen := by
  rcases h with hrests | ⟨sender, message, state, way, seen, htravels⟩
  · rw [hrests.flights] at hf
    cases hf
  · obtain ⟨k, hk, hflight⟩ := List.mem_map.mp (htravels.flights.mem_iff.mp hf)
    have hsender : flight.sender = sender := by rw [← hflight]
    have hperm := List.perm_cons_erase hk
    refine ⟨message, state, k, way.erase k, seen, by rw [← hflight], ?_⟩
    rw [hsender]
    exact { htravels with
      flights := htravels.flights.trans (hperm.map _)
      nodup := (hperm.append_right seen).nodup_iff.mp htravels.nodup
      bound := fun j hj => htravels.bound j ((hperm.append_right seen).mem_iff.mpr hj) }

theorem Travels.arrival (h : v.Travels client sender message state (k :: way) seen) :
    (k :: seen).Nodup ∧ (∀ j ∈ k :: seen, j < message.fragmentCount) ∧ (way ++ k :: seen).Nodup ∧
      ∀ j ∈ way ++ k :: seen, j < message.fragmentCount := by
  have hperm : (way ++ k :: seen).Perm (k :: way ++ seen) := List.perm_middle
  have hnodup := hperm.nodup_iff.mpr h.nodup
  have hbound : ∀ j ∈ way ++ k :: seen, j < message.fragmentCount := fun j hj => h.bound j (hperm.mem_iff.mp hj)
  exact ⟨hnodup.of_append_right, fun j hj => hbound j (List.mem_append_right way hj), hnodup, hbound⟩

/-- What a defragmenter that waits for the state makes of a fragment of it. -/
theorem Travels.defragments (h : v.Travels client sender message state (k :: way) seen) {d : TcpMigDefragmenter}
    (hd : v.awaited sender.other = some d) :
    (∃ d', d.defragment (message.fragment k).tcpmigHdr (message.fragment k).data = some (none, d') ∧
        Stored message.data message.fragmentCount (k :: seen) d' ∧ KnowsTotal message.fragmentCount (k :: seen) d') ∨
      way = [] ∧ ∃ whole d', d.defragment (message.fragment k).tcpmigHdr (message.fragment k).data =
        some (some (whole, state.encode), d') := by
  obtain ⟨hstored, htotal⟩ := h.stored d hd
  obtain ⟨hnodup, hbound, hall, hallBound⟩ := h.arrival
  rcases defragment_stored hstored htotal h.count_lt hnodup hbound with hmore | ⟨hcount, d', hlast⟩
  · exact .inl hmore
  · refine .inr ⟨?_, message.tcpmigHdr.whole, d', h.data ▸ hlast⟩
    have hsub := List.subperm_of_subset hall fun j hj => List.mem_range.mpr (hallBound j hj)
    have hlength := hsub.length_le
    rw [List.length_append, List.length_cons, List.length_range] at hlength
    exact List.eq_nil_of_length_eq_zero (by omega)

/-- Without the fragment. -/
theorem Travels.flights_erase (h : v.Travels client sender message state (k :: way) seen) :
    (v.flights.erase ⟨sender, message.fragment k⟩).Perm (way.map fun k => ⟨sender, message.fragment k⟩) := by
  have herase := h.flights.erase ⟨sender, message.fragment k⟩
  rwa [List.map_cons, List.erase_cons_head] at herase

theorem Travels.stores (h : v.Travels client sender message state (k :: way) seen) {d' : TcpMigDefragmenter}
    (hstored : Stored message.data message.fragmentCount (k :: seen) d')
    (htotal : KnowsTotal message.fragmentCount (k :: seen) d') (hheld : ∀ p, v'.held p ≤ v.held p)
    (hflights : v'.flights = v.flights.erase ⟨sender, message.fragment k⟩)
    (hother : v'.awaited sender.other = some d') (hsender : v'.awaited sender = v.awaited sender)
    (hexported : v'.exported = v.exported) (himported : v'.imported = v.imported) :
    v'.Travels client sender message state way (k :: seen) := by
  obtain ⟨-, -, hnodup, hbound⟩ := h.arrival
  refine ⟨h.gone.mono hheld, h.count_lt, h.data, h.fits, h.remote, ?_, hnodup, hbound, fun d hd => ?_, ?_, ?_⟩
  · rw [hflights]
    exact h.flights_erase
  · cases hother.symm.trans hd
    exact ⟨hstored, htotal⟩
  · rw [hsender]
    exact h.awaited
  · rw [hexported, himported, h.exported]

theorem Travels.imports (h : v.Travels client sender message state [k] seen) {q : Site × Spot}
    (hq : v'.held q ≤ v.held q + 1) (hheld : ∀ r, r ≠ q → v'.held r ≤ v.held r)
    (hflights : v'.flights = v.flights.erase ⟨sender, message.fragment k⟩)
    (hother : v'.awaited sender.other = none) (hsender : v'.awaited sender = v.awaited sender)
    (hexported : v'.exported = v.exported) (himported : v'.imported = v.imported ++ [state.cb.portable]) :
    v'.Rests where
  sole := h.gone.put hq hheld
  flights := by
    have hperm := h.flights_erase
    rw [← hflights] at hperm
    exact List.perm_nil.mp hperm
  awaited := by
    intro site d hd
    by_cases hsite : site = sender
    · rw [hsite, hsender] at hd
      exact h.awaited d hd
    · have hsame : site = sender.other := by
        revert hsite
        cases site <;> cases sender <;> simp [Site.other]
      rw [hsame, hother] at hd
      cases hd
  exported := by rw [hexported, himported, h.exported]

theorem Safe.imported_exported (h : v.Safe client) : v.imported <+: v.exported := by
  rcases h with hrests | ⟨sender, message, state, way, seen, htravels⟩
  · rw [hrests.exported]
  · rw [htravels.exported]
    exact List.prefix_append _ _

theorem Safe.sole (h : v.Safe client) : Sole v.held := by
  rcases h with hrests | ⟨sender, message, state, way, seen, htravels⟩
  · exact hrests.sole
  · exact htravels.gone.sole

end

end Custody

end Capybara
