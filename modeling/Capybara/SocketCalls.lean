import Capybara.UdpPeer

namespace Capybara

namespace EphemeralPorts

/-- What a bind to an address takes: the address it gets and the pool that is left. -/
inductive Takes (p : EphemeralPorts) (addr : SocketAddrV4) : SocketAddrV4 → EphemeralPorts → Prop
  | private_ (hprivate : isPrivate addr.port = true) (hfree : addr.port ∈ p.ports) :
      Takes p addr addr ⟨p.ports.filter (· ≠ addr.port)⟩
  | wildcard {port : UInt16} (hzero : addr.port = 0) (hlast : p.ports.getLast? = some port) :
      Takes p addr { addr with port := port } ⟨p.ports.dropLast⟩
  | other (hpublic : isPrivate addr.port = false) (hnonzero : addr.port ≠ 0) : Takes p addr addr p

/-- The pool when a failed bind has given its port back. -/
def giveBack (p : EphemeralPorts) (port : UInt16) : EphemeralPorts := if isPrivate port then p.free port else p

/-- A bind that fails leaves the pool in its order: an explicit port was the last one and there was only one of it, and
a wildcard one is private. -/
def Restores (p : EphemeralPorts) (port : UInt16) : Prop :=
  if isPrivate port then port ∉ p.ports ∨ (p.ports.getLast? = some port ∧ port ∉ p.ports.dropLast)
  else port = 0 → ∀ last ∈ p.ports.getLast?, isPrivate last = true

end EphemeralPorts

section

variable {p p' : EphemeralPorts} {addr addr' : SocketAddrV4}

theorem filter_append_eq_iff {α : Type} [DecidableEq α] {a : α} {l : List α} :
    l.filter (· ≠ a) ++ [a] = l ↔ l.getLast? = some a ∧ a ∉ l.dropLast := by
  constructor
  · intro h
    have hno : a ∉ l.filter (· ≠ a) := fun hm => absurd rfl (of_decide_eq_true (List.mem_filter.mp hm).2)
    rw [← h, List.getLast?_append, List.dropLast_concat]
    exact ⟨rfl, fun hm => hno (h ▸ hm)⟩
  · rintro ⟨hlast, hno⟩
    have hl := List.dropLast_append_getLast? a hlast
    have hall : l.dropLast.filter (· ≠ a) = l.dropLast :=
      List.filter_eq_self.mpr fun b hb => decide_eq_true fun heq => hno (heq ▸ hb)
    have hfilter : l.filter (· ≠ a) = l.dropLast := by
      calc l.filter (· ≠ a) = (l.dropLast ++ [a]).filter (· ≠ a) := by rw [hl]
        _ = l.dropLast := by rw [List.filter_append, hall]; simp
    rw [hfilter]
    exact hl

theorem EphemeralPorts.isPrivate_zero : EphemeralPorts.isPrivate 0 = false := rfl

/-- A failed bind restores the pool exactly in this case. -/
theorem EphemeralPorts.Takes.giveBack_iff (h : p.Takes addr addr' p') :
    p'.giveBack addr'.port = p ↔ p.Restores addr.port := by
  unfold EphemeralPorts.giveBack EphemeralPorts.Restores
  cases h with
  | private_ hprivate hfree =>
    rw [if_pos hprivate, if_pos hprivate, EphemeralPorts.free, ← filter_append_eq_iff]
    constructor
    · intro heq
      exact .inr (congrArg EphemeralPorts.ports heq)
    · rintro (hno | heq)
      · exact absurd hfree hno
      · exact congrArg EphemeralPorts.mk heq
  | wildcard hzero hlast =>
    rename_i port
    rw [hzero, EphemeralPorts.isPrivate_zero, if_neg Bool.false_ne_true, hlast]
    have hl := List.dropLast_append_getLast? port hlast
    constructor
    · intro heq _ last hmem
      cases Option.mem_some_iff.mp hmem
      cases hprivate : EphemeralPorts.isPrivate port with
      | true => rfl
      | false =>
        rw [if_neg (by rw [hprivate]; exact Bool.false_ne_true)] at heq
        have hshort : p.ports.dropLast.length = p.ports.length := congrArg List.length (congrArg EphemeralPorts.ports heq)
        have hlen := congrArg List.length hl
        rw [List.length_append, List.length_singleton] at hlen
        omega
    · intro hall
      rw [if_pos (hall rfl port (Option.mem_some_iff.mpr rfl)), EphemeralPorts.free]
      exact congrArg EphemeralPorts.mk hl
  | other hpublic hnonzero =>
    rw [hpublic, if_neg Bool.false_ne_true, if_neg Bool.false_ne_true]
    exact ⟨fun _ hzero => absurd hzero hnonzero, fun _ => rfl⟩

theorem EphemeralPorts.Takes.unique {addr₁ : SocketAddrV4} {p₁ : EphemeralPorts} (h : p.Takes addr addr' p')
    (h₁ : p.Takes addr addr₁ p₁) : addr₁ = addr' ∧ p₁ = p' := by
  cases h with
  | private_ hprivate _ =>
    cases h₁ with
    | private_ => exact ⟨rfl, rfl⟩
    | wildcard hzero _ => rw [hzero] at hprivate; cases hprivate
    | other hpublic _ => cases hprivate.symm.trans hpublic
  | wildcard hzero hlast =>
    cases h₁ with
    | private_ hprivate _ => rw [hzero] at hprivate; cases hprivate
    | wildcard _ hlast₁ => cases hlast.symm.trans hlast₁; exact ⟨rfl, rfl⟩
    | other _ hnonzero => exact absurd hzero hnonzero
  | other hpublic hnonzero =>
    cases h₁ with
    | private_ hprivate _ => cases hprivate.symm.trans hpublic
    | wildcard hzero _ => exact absurd hzero hnonzero
    | other => exact ⟨rfl, rfl⟩

/-- The port of a bind: explicit, wildcard or none of the pool. -/
theorem UdpPeer.bindPort_cases (u : UdpPeer) (addr : SocketAddrV4) :
    (∃ addr' ports, u.bindPort addr = .ok (addr', ports) ∧ u.ephemeralPorts.Takes addr addr' ports) ∨
      ∃ e, u.bindPort addr = .error e ∧ ∀ addr' ports, ¬u.ephemeralPorts.Takes addr addr' ports := by
  unfold UdpPeer.bindPort
  cases hprivate : EphemeralPorts.isPrivate addr.port with
  | true =>
    rw [if_pos rfl]
    unfold EphemeralPorts.allocPort
    split
    next hfree => exact .inl ⟨addr, _, rfl, .private_ hprivate hfree⟩
    next hno =>
      refine .inr ⟨_, rfl, fun addr' ports htakes => ?_⟩
      cases htakes with
      | private_ _ hfree => exact hno hfree
      | wildcard hzero _ => rw [hzero] at hprivate; cases hprivate
      | other hpublic _ => cases hprivate.symm.trans hpublic
  | false =>
    rw [if_neg Bool.false_ne_true]
    by_cases hzero : addr.port = 0
    · rw [if_pos hzero]
      unfold EphemeralPorts.allocAny
      split
      next port hlast => exact .inl ⟨{ addr with port := port }, _, rfl, .wildcard hzero hlast⟩
      next hnone =>
        refine .inr ⟨_, rfl, fun addr' ports htakes => ?_⟩
        cases htakes with
        | private_ hyes _ => cases hyes.symm.trans hprivate
        | wildcard _ hlast => cases hnone.symm.trans hlast
        | other _ hnonzero => exact hnonzero hzero
    · rw [if_neg hzero]
      exact .inl ⟨addr, _, rfl, .other hprivate hzero⟩

/-- A private port is no wildcard, so that the two checks of TCP come to the one of UDP. -/
theorem Inner.bindPort_cases (i : Inner) (addr : SocketAddrV4) :
    (∃ addr' ports, i.bindPort addr = .ok (addr', ports) ∧ i.ephemeralPorts.Takes addr addr' ports) ∨
      ∃ e, i.bindPort addr = .error e ∧ ∀ addr' ports, ¬i.ephemeralPorts.Takes addr addr' ports := by
  have heq : i.bindPort addr = (UdpPeer.new i.ephemeralPorts).bindPort addr := by
    unfold Inner.bindPort UdpPeer.bindPort
    cases hprivate : EphemeralPorts.isPrivate addr.port with
    | true =>
      have hnonzero : addr.port ≠ 0 := fun hzero => by rw [hzero] at hprivate; cases hprivate
      simp only [hnonzero, if_true, if_false]
      rfl
    | false =>
      simp only [Bool.false_eq_true, if_false]
      rfl
  rw [heq]
  exact UdpPeer.bindPort_cases _ addr

/-- Where nothing can be taken, nothing has to be restored. -/
theorem EphemeralPorts.restores_of_not_takes (hno : ∀ addr' p', ¬p.Takes addr addr' p') : p.Restores addr.port := by
  unfold EphemeralPorts.Restores
  cases hprivate : EphemeralPorts.isPrivate addr.port with
  | true =>
    rw [if_pos rfl]
    exact .inl fun hfree => hno _ _ (.private_ hprivate hfree)
  | false =>
    rw [if_neg Bool.false_ne_true]
    exact fun hzero last hlast => absurd (.wildcard hzero hlast) (hno _ _)

end

namespace Inner

/-- What a bind of TCP does: nothing, or the socket gets the address, or the port goes back to the pool. -/
inductive Bound (i : Inner) (qd : QDesc) (addr : SocketAddrV4) : Except Fail Unit × Inner → Prop
  | inUse {e : Fail} (hused : (i.sockets.any fun socket => socket.bound = some addr) = true) : Bound i qd addr (.error e, i)
  | noPort {e : Fail} (hno : ∀ addr' ports, ¬i.ephemeralPorts.Takes addr addr' ports) : Bound i qd addr (.error e, i)
  | bound {addr' : SocketAddrV4} {ports : EphemeralPorts} (htakes : i.ephemeralPorts.Takes addr addr' ports)
      (hsocket : i.sockets.get qd = some (.inactive none)) :
      Bound i qd addr (.ok (), { i with
        ephemeralPorts := ports
        tcpmig := i.tcpmig.setPort addr'.port
        sockets := i.sockets.insert qd (.inactive (some addr')) })
  | rolledBack {addr' : SocketAddrV4} {ports : EphemeralPorts} {e : Fail}
      (hfree : (i.sockets.any fun socket => socket.bound = some addr) = false)
      (htakes : i.ephemeralPorts.Takes addr addr' ports) (hsocket : i.sockets.get qd ≠ some (.inactive none)) :
      Bound i qd addr (.error e, { i with
        ephemeralPorts := ports.giveBack addr'.port
        tcpmig := i.tcpmig.setPort addr'.port })

theorem rollbackPort_eq (i : Inner) (addr : SocketAddrV4) :
    i.rollbackPort addr = { i with ephemeralPorts := i.ephemeralPorts.giveBack addr.port } := by
  unfold rollbackPort EphemeralPorts.giveBack
  split <;> rfl

theorem bind_bound (i : Inner) (qd : QDesc) (addr : SocketAddrV4) : i.Bound qd addr (i.bind qd addr) := by
  unfold bind
  split
  next hused => exact .inUse hused
  next hfree =>
    rcases i.bindPort_cases addr with ⟨addr', ports, hport, htakes⟩ | ⟨e, hport, hno⟩
    · rw [hport]
      dsimp only
      split
      next hsocket => exact .bound htakes hsocket
      next address hsocket =>
        rw [rollbackPort_eq]
        refine .rolledBack (Bool.eq_false_iff.mpr hfree) htakes fun hnone => ?_
        cases hsocket.symm.trans hnone
      next hother _ =>
        rw [rollbackPort_eq]
        exact .rolledBack (Bool.eq_false_iff.mpr hfree) htakes hother
    · rw [hport]
      exact .noPort hno

/-- The address a connect starts from, and the pool that is left: the one the socket has, or a port of the pool. -/
inductive Chooses (i : Inner) (qd : QDesc) : SocketAddrV4 → EphemeralPorts → Prop
  | fresh {port : UInt16} (hsocket : i.sockets.get qd = some (.inactive none))
      (hlast : i.ephemeralPorts.ports.getLast? = some port) :
      Chooses i qd ⟨i.localIpv4Addr, port⟩ ⟨i.ephemeralPorts.ports.dropLast⟩
  | bound {local_ : SocketAddrV4} (hsocket : i.sockets.get qd = some (.inactive (some local_))) :
      Chooses i qd local_ i.ephemeralPorts

/-- What a connect does: nothing, or it starts a connection attempt. -/
inductive Connects (i : Inner) (qd : QDesc) (remote : SocketAddrV4) : Option (Except Fail Unit × Inner) → Prop
  | refused {e : Fail} (hno : ∀ local_ ports, ¬i.Chooses qd local_ ports) : Connects i qd remote (some (.error e, i))
  | panics {local_ : SocketAddrV4} {ports : EphemeralPorts} (hchooses : i.Chooses qd local_ ports)
      (hisn : i.isnGenerator.generate local_ remote = none) : Connects i qd remote none
  | starts {local_ : SocketAddrV4} {ports : EphemeralPorts} {localIsn : SeqNumber} {isnGenerator : IsnGenerator}
      {result : Except Fail Unit} (hchooses : i.Chooses qd local_ ports)
      (hisn : i.isnGenerator.generate local_ remote = some (localIsn, isnGenerator))
      (hresult : result = .ok () ↔ i.connecting.get (local_, remote) = none) :
      Connects i qd remote (some (result, { i with
        ephemeralPorts := ports
        isnGenerator := isnGenerator
        sockets := i.sockets.insert qd (.connecting local_ remote)
        connecting := i.connecting.insert (local_, remote) (.new localIsn local_ remote i.tcpConfig) }))

section

variable {i : Inner} {qd : QDesc} {local_ remote : SocketAddrV4} {ports : EphemeralPorts}

theorem Chooses.unique {local₁ : SocketAddrV4} {ports₁ : EphemeralPorts} (h : i.Chooses qd local_ ports)
    (h₁ : i.Chooses qd local₁ ports₁) : local₁ = local_ ∧ ports₁ = ports := by
  cases h with
  | fresh hsocket hlast =>
    cases h₁ with
    | fresh _ hlast₁ => cases hlast.symm.trans hlast₁; exact ⟨rfl, rfl⟩
    | bound hsocket₁ => cases hsocket.symm.trans hsocket₁
  | bound hsocket =>
    cases h₁ with
    | fresh hsocket₁ _ => cases hsocket.symm.trans hsocket₁
    | bound hsocket₁ => cases hsocket.symm.trans hsocket₁; exact ⟨rfl, rfl⟩

theorem Chooses.inactive (h : i.Chooses qd local_ ports) : ∃ address, i.sockets.get qd = some (.inactive address) := by
  cases h with
  | fresh hsocket _ => exact ⟨_, hsocket⟩
  | bound hsocket => exact ⟨_, hsocket⟩

theorem not_chooses (h : ∀ address, i.sockets.get qd ≠ some (.inactive address)) (local_ : SocketAddrV4)
    (ports : EphemeralPorts) : ¬i.Chooses qd local_ ports := by
  intro hchooses
  obtain ⟨address, hsocket⟩ := hchooses.inactive
  exact h address hsocket

theorem startConnecting_connects (h : i.Chooses qd local_ ports) :
    i.Connects qd remote ({ i with ephemeralPorts := ports }.startConnecting qd local_ remote) := by
  unfold startConnecting
  dsimp only [setSocket]
  cases hisn : i.isnGenerator.generate local_ remote with
  | none => exact .panics h hisn
  | some r =>
    obtain ⟨localIsn, isnGenerator⟩ := r
    simp only [Option.bind_eq_bind, Option.bind_some]
    split
    next old hold =>
      refine .starts h hisn ⟨fun hok => (by cases hok), fun hnone => ?_⟩
      cases hold.symm.trans hnone
    next hnone => exact .starts h hisn ⟨fun _ => hnone, fun _ => rfl⟩

theorem connect_connects (i : Inner) (qd : QDesc) (remote : SocketAddrV4) :
    i.Connects qd remote (i.connect qd remote) := by
  unfold connect
  split
  next hsocket =>
    unfold EphemeralPorts.allocAny
    cases hlast : i.ephemeralPorts.ports.getLast? with
    | none =>
      refine .refused fun local_ ports hchooses => ?_
      cases hchooses with
      | fresh _ hlast₁ => cases hlast.symm.trans hlast₁
      | bound hbound => cases hsocket.symm.trans hbound
    | some port => exact startConnecting_connects (.fresh hsocket hlast)
  next local_ hsocket => exact startConnecting_connects (.bound hsocket)
  next hsocket => exact .refused (not_chooses fun address h => by cases hsocket.symm.trans h)
  next hsocket => exact .refused (not_chooses fun address h => by cases hsocket.symm.trans h)
  next hunbound hbound _ _ =>
    refine .refused (not_chooses fun address h => ?_)
    cases address with
    | none => exact hunbound h
    | some address => exact hbound address h

end

end Inner

namespace UdpPeer

/-- What a bind of UDP does: nothing, or the socket gets the address, or it gets one that has a queue already and the
port goes back to the pool, or only the port goes back. -/
inductive Bound (u : UdpPeer) (qd : QDesc) (addr : SocketAddrV4) : Except Fail Unit × UdpPeer → Prop
  | inUse {e : Fail} (hused : (u.bound.get addr).isSome = true) : Bound u qd addr (.error e, u)
  | noPort {e : Fail} (hno : ∀ addr' ports, ¬u.ephemeralPorts.Takes addr addr' ports) : Bound u qd addr (.error e, u)
  | bound {addr' : SocketAddrV4} {ports : EphemeralPorts} (htakes : u.ephemeralPorts.Takes addr addr' ports)
      (hsocket : u.sockets.get qd = some none) (hnew : u.bound.get addr' = none) :
      Bound u qd addr (.ok (), ⟨ports, u.sockets.insert qd (some addr'), u.bound.insert addr' (.new recvQueueMaxSize)⟩)
  | clashed {addr' : SocketAddrV4} {ports : EphemeralPorts} {e : Fail} (hfree : u.bound.get addr = none)
      (htakes : u.ephemeralPorts.Takes addr addr' ports) (hsocket : u.sockets.get qd = some none)
      (hold : u.bound.get addr' ≠ none) :
      Bound u qd addr (.error e,
        ⟨ports.giveBack addr'.port, u.sockets.insert qd (some addr'), u.bound.insert addr' (.new recvQueueMaxSize)⟩)
  | rolledBack {addr' : SocketAddrV4} {ports : EphemeralPorts} {e : Fail} (hfree : u.bound.get addr = none)
      (htakes : u.ephemeralPorts.Takes addr addr' ports) (hsocket : u.sockets.get qd ≠ some none) :
      Bound u qd addr (.error e, { u with ephemeralPorts := ports.giveBack addr'.port })

theorem rollbackPort_eq (u : UdpPeer) (addr : SocketAddrV4) :
    u.rollbackPort addr = { u with ephemeralPorts := u.ephemeralPorts.giveBack addr.port } := by
  unfold rollbackPort EphemeralPorts.giveBack
  split <;> rfl

theorem doBind_bound (u : UdpPeer) (qd : QDesc) (addr : SocketAddrV4) : u.Bound qd addr (u.doBind qd addr) := by
  unfold doBind
  split
  next hused => exact .inUse hused
  next hfree =>
    have hfree : u.bound.get addr = none := Option.not_isSome_iff_eq_none.mp hfree
    rcases u.bindPort_cases addr with ⟨addr', ports, hport, htakes⟩ | ⟨e, hport, hno⟩
    · rw [hport]
      dsimp only [registerAddr]
      cases hsocket : u.sockets.get qd with
      | none =>
        dsimp only
        rw [rollbackPort_eq]
        exact .rolledBack hfree htakes (by rw [hsocket]; exact nofun)
      | some address =>
        cases address with
        | some address =>
          dsimp only
          rw [rollbackPort_eq]
          exact .rolledBack hfree htakes (by rw [hsocket]; exact nofun)
        | none =>
          cases hold : u.bound.get addr' with
          | none => exact .bound htakes hsocket hold
          | some queue =>
            simp only [Option.isSome_some, if_true, rollbackPort_eq]
            exact .clashed hfree htakes hsocket (by rw [hold]; exact nofun)
    · rw [hport]
      exact .noPort hno

end UdpPeer

end Capybara
