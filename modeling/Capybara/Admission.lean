import Capybara.Lib.Runs
import Capybara.HandshakeWindows

namespace Capybara

open Runs

/-- An RST of the peer of a handshake: with an ACK it acknowledges our SYN, without one it is the next segment of the
peer. -/
def InflightAccept.ResetBy (accept : InflightAccept) (header : TcpHeader) : Prop :=
  header.rst = true ∧ if header.ack = true then header.ackNum = accept.localIsn + .ofNat 1
    else header.seqNum = accept.remoteIsn + .ofNat 1

/-- An ACK of our SYN. -/
def InflightAccept.AckedBy (accept : InflightAccept) (header : TcpHeader) : Prop :=
  header.ack = true ∧ header.ackNum = accept.localIsn + .ofNat 1

instance (accept : InflightAccept) (header : TcpHeader) : Decidable (accept.ResetBy header) :=
  inferInstanceAs (Decidable (_ ∧ if header.ack = true then header.ackNum = accept.localIsn + .ofNat 1
    else header.seqNum = accept.remoteIsn + .ofNat 1))

instance (accept : InflightAccept) (header : TcpHeader) : Decidable (accept.AckedBy header) :=
  inferInstanceAs (Decidable (_ ∧ _))

inductive ListenerEvent
  | segment (srcAddr : Ipv4Addr) (header : TcpHeader)
  | accept
  | migratedIn (cb : ControlBlock)

/-- A segment that made a connection ready, and the handshake it was for. -/
structure Admission where
  remote : SocketAddrV4
  handshake : Option InflightAccept
  header : TcpHeader

/-- A listener, the endpoints whose handshakes began, the segments that made connections ready, and for each RST that
matched a handshake whether it removed it and made nothing ready. -/
structure ListenerRun where
  socket : PassiveSocket
  started : List SocketAddrV4
  admitted : List Admission
  resets : List Bool

namespace ListenerRun

def start (p : PassiveSocket) : ListenerRun := ⟨p, [], [], []⟩

def remote (srcAddr : Ipv4Addr) (header : TcpHeader) : SocketAddrV4 := ⟨srcAddr, header.srcPort⟩

/-- What a segment from an endpoint leaves in the records. -/
def follow (h : ListenerRun) (endpoint : SocketAddrV4) (header : TcpHeader) (p : PassiveSocket) : ListenerRun where
  socket := p
  started := if h.socket.inflight.get endpoint = none ∧ p.inflight.get endpoint ≠ none then h.started ++ [endpoint]
    else h.started
  admitted := if h.socket.ready.ready.length < p.ready.ready.length then
      h.admitted ++ [⟨endpoint, h.socket.inflight.get endpoint, header⟩]
    else h.admitted
  resets := match h.socket.inflight.get endpoint with
    | some accept =>
      if accept.ResetBy header then
        h.resets ++ [(p.inflight.get endpoint).isNone && p.ready.ready.length == h.socket.ready.ready.length]
      else h.resets
    | none => h.resets

def step (h : ListenerRun) : ListenerEvent → Option ListenerRun
  | .segment srcAddr header => do
    let (_, p) ← h.socket.receive srcAddr header
    some (h.follow (remote srcAddr header) header p)
  | .accept => do
    let (_, p) ← h.socket.pollAccept
    some { h with socket := p }
  | .migratedIn cb => do
    let p ← h.socket.pushMigratedIn cb
    some { h with socket := p }

/-- Connections become ready only on the ACK of a handshake without RST and SYN, at most once for each handshake, and a
matching RST ends the handshake. -/
structure AdmitsAcks (h : ListenerRun) : Prop where
  admitted : ∀ a ∈ h.admitted, ∃ accept, a.handshake = some accept ∧ accept.AckedBy a.header ∧
    a.header.rst = false ∧ a.header.syn = false
  once : ∀ endpoint, h.admitted.countP (fun a => a.remote = endpoint) +
    (if (h.socket.inflight.get endpoint).isSome then 1 else 0) ≤ h.started.count endpoint
  resets : ∀ removed ∈ h.resets, removed = true

/-- No RST matches the handshake of its endpoint, and an ACK that completes one does not carry SYN. -/
def PlainAck (h : ListenerRun) (e : ListenerEvent) : Prop :=
  match e with
  | .segment srcAddr header => ∀ accept ∈ h.socket.inflight.get (remote srcAddr header), ¬accept.ResetBy header ∧
      (remote srcAddr header ∉ h.socket.ready.endpoints → accept.AckedBy header → header.syn = false)
  | _ => True

instance : (h : ListenerRun) → (e : ListenerEvent) → Decidable (PlainAck h e)
  | h, .segment srcAddr header =>
    inferInstanceAs (Decidable (∀ accept ∈ h.socket.inflight.get (remote srcAddr header), _))
  | _, .accept | _, .migratedIn _ => inferInstanceAs (Decidable True)

end ListenerRun

/-- What a segment from an endpoint does to a listener: nothing, or it completes the handshake of the endpoint, or it
begins one. -/
inductive PassiveSocket.Received (p : PassiveSocket) (endpoint : SocketAddrV4) (header : TcpHeader) :
    PassiveSocket → Prop
  | ignored (hno : ∀ accept, p.inflight.get endpoint = some accept → endpoint ∉ p.ready.endpoints →
      ¬accept.AckedBy header) : Received p endpoint header p
  | completes {accept : InflightAccept} {cb : ControlBlock} {ready : ReadySockets}
      (hentry : p.inflight.get endpoint = some accept) (hunready : endpoint ∉ p.ready.endpoints)
      (hacked : accept.AckedBy header) (hready : ready.ready = p.ready.ready ++ [.ok cb]) :
      Received p endpoint header { p with inflight := p.inflight.remove endpoint, ready := ready }
  | begins {accept : InflightAccept} {isnGenerator : IsnGenerator} (hnew : p.inflight.get endpoint = none) :
      Received p endpoint header
        { p with inflight := p.inflight.insert endpoint accept, isnGenerator := isnGenerator }

section

variable {p p' : PassiveSocket} {srcAddr : Ipv4Addr} {header : TcpHeader} {result : Except Fail Unit}
  {h h' : ListenerRun}

theorem PassiveSocket.receive_cases (hr : p.receive srcAddr header = some (result, p')) :
    p.Received (ListenerRun.remote srcAddr header) header p' := by
  unfold PassiveSocket.receive at hr
  change (if ListenerRun.remote srcAddr header ∈ p.ready.endpoints then some (Except.ok (), p)
    else match p.inflight.get (ListenerRun.remote srcAddr header) with
      | some accept => p.receiveInflight accept (ListenerRun.remote srcAddr header) header
      | none => p.receiveSyn (ListenerRun.remote srcAddr header) header) = some (result, p') at hr
  split at hr
  next hready =>
    cases hr
    exact .ignored fun _ _ hun => absurd hready hun
  next hunready =>
    cases hentry : p.inflight.get (ListenerRun.remote srcAddr header) with
    | some accept =>
      rw [hentry] at hr
      dsimp only at hr
      unfold PassiveSocket.receiveInflight at hr
      split at hr
      next hnoack =>
        cases hr
        refine .ignored fun accept' ha _ hacked => ?_
        exact absurd (hnoack.symm.trans hacked.1) (by simp)
      next hack =>
        split at hr
        next hne =>
          cases hr
          refine .ignored fun accept' ha _ hacked => ?_
          cases hentry.symm.trans ha
          exact hne hacked.2
        next heq =>
          obtain ⟨cb, -, hr⟩ := Option.bind_eq_some_iff.mp hr
          obtain ⟨ready, hpush, hr⟩ := Option.bind_eq_some_iff.mp hr
          cases hr
          unfold ReadySockets.pushOk at hpush
          split at hpush
          next => cases hpush
          next =>
            cases hpush
            exact .completes hentry hunready ⟨by simpa using hack, not_not.mp heq⟩ rfl
    | none =>
      rw [hentry] at hr
      dsimp only at hr
      have hnothing : p.Received (ListenerRun.remote srcAddr header) header p := .ignored fun accept ha => by
        cases hentry.symm.trans ha
      unfold PassiveSocket.receiveSyn at hr
      split at hr
      next =>
        cases hr
        exact hnothing
      next =>
        split at hr
        next =>
          cases hr
          exact hnothing
        next =>
          obtain ⟨⟨isn, isnGenerator⟩, -, hr⟩ := Option.bind_eq_some_iff.mp hr
          cases hr
          exact .begins hentry

namespace ListenerRun

/-- A segment that does nothing admits nothing, and is a reset only if it should have done something. -/
theorem AdmitsAcks.ignored {endpoint : SocketAddrV4} (ha : AdmitsAcks h) :
    AdmitsAcks (h.follow endpoint header h.socket) ↔
      ∀ accept ∈ h.socket.inflight.get endpoint, ¬accept.ResetBy header := by
  have hfollow : h.follow endpoint header h.socket = { h with resets := match h.socket.inflight.get endpoint with
      | some accept => if accept.ResetBy header then h.resets ++ [(h.socket.inflight.get endpoint).isNone &&
          h.socket.ready.ready.length == h.socket.ready.ready.length] else h.resets
      | none => h.resets } := by
    unfold follow
    rw [if_neg (by simp), if_neg (by simp)]
  rw [hfollow]
  cases hentry : h.socket.inflight.get endpoint with
  | none => exact ⟨fun _ _ hno => (by cases hno), fun _ => ha⟩
  | some accept =>
    dsimp only
    constructor
    · rintro ⟨-, -, hresets⟩ accept' ⟨⟩ hreset
      rw [if_pos hreset] at hresets
      have hremoved := hresets _ (List.mem_append_right _ (List.mem_singleton.mpr rfl))
      simp at hremoved
    · intro hno
      rw [if_neg (hno accept rfl)]
      exact ha

theorem count_remote (as : List Admission) (a : Admission) (endpoint : SocketAddrV4) :
    (as ++ [a]).countP (fun a => a.remote = endpoint) =
      as.countP (fun a => a.remote = endpoint) + if a.remote = endpoint then 1 else 0 := by
  rw [List.countP_append, List.countP_singleton]
  simp

/-- The ACK that completes a handshake is admitted rightly if it carries neither RST nor SYN. -/
theorem AdmitsAcks.completes {endpoint : SocketAddrV4} {accept : InflightAccept} {cb : ControlBlock}
    {ready : ReadySockets} (ha : AdmitsAcks h) (hentry : h.socket.inflight.get endpoint = some accept)
    (hacked : accept.AckedBy header) (hready : ready.ready = h.socket.ready.ready ++ [.ok cb]) :
    AdmitsAcks (h.follow endpoint header
      { h.socket with inflight := h.socket.inflight.remove endpoint, ready := ready }) ↔
        ¬accept.ResetBy header ∧ header.syn = false := by
  have hreset : accept.ResetBy header ↔ header.rst = true := by
    rw [InflightAccept.ResetBy, if_pos hacked.1]
    exact and_iff_left hacked.2
  have hlonger : h.socket.ready.ready.length < ready.ready.length := by simp [hready]
  have hfollow : h.follow endpoint header
      { h.socket with inflight := h.socket.inflight.remove endpoint, ready := ready } =
        ⟨{ h.socket with inflight := h.socket.inflight.remove endpoint, ready := ready }, h.started,
          h.admitted ++ [⟨endpoint, some accept, header⟩],
          if header.rst = true then h.resets ++ [false] else h.resets⟩ := by
    unfold follow
    rw [hentry]
    dsimp only
    rw [if_neg (by simp), if_pos hlonger]
    have hlast : (((h.socket.inflight.remove endpoint).get endpoint).isNone &&
        ready.ready.length == h.socket.ready.ready.length) = false := by
      simp only [Bool.and_eq_false_iff, beq_eq_false_iff_ne]
      exact .inr (by omega)
    rw [hlast]
    simp only [hreset]
  rw [hfollow, hreset]
  constructor
  · rintro ⟨hadmitted, -, -⟩
    obtain ⟨accept', -, -, hrst, hsyn⟩ := hadmitted _ (List.mem_append_right _ (List.mem_singleton.mpr rfl))
    exact ⟨by simpa using hrst, hsyn⟩
  · rintro ⟨hrst, hsyn⟩
    refine ⟨?_, ?_, ?_⟩
    · intro a hmem
      rcases List.mem_append.mp hmem with hold | hnew
      · exact ha.admitted a hold
      · rw [List.mem_singleton.mp hnew]
        exact ⟨accept, rfl, hacked, by simpa using hrst, hsyn⟩
    · intro other
      have honce := ha.once other
      rw [count_remote]
      dsimp only
      rw [HashMap.get_remove]
      by_cases hsame : endpoint = other
      · subst hsame
        rw [hentry] at honce
        simpa using honce
      · rw [if_neg hsame, if_neg (Ne.symm hsame)]
        exact honce
    · rw [if_neg hrst]
      exact ha.resets

/-- A SYN begins a handshake. -/
theorem AdmitsAcks.begins {endpoint : SocketAddrV4} {accept : InflightAccept} {isnGenerator : IsnGenerator}
    (ha : AdmitsAcks h) (hnew : h.socket.inflight.get endpoint = none) : AdmitsAcks (h.follow endpoint header
      { h.socket with inflight := h.socket.inflight.insert endpoint accept, isnGenerator := isnGenerator }) := by
  have hfollow : h.follow endpoint header
      { h.socket with inflight := h.socket.inflight.insert endpoint accept, isnGenerator := isnGenerator } =
        ⟨{ h.socket with inflight := h.socket.inflight.insert endpoint accept, isnGenerator := isnGenerator },
          h.started ++ [endpoint], h.admitted, h.resets⟩ := by
    unfold follow
    rw [hnew]
    dsimp only
    rw [if_pos (by simp), if_neg (by simp)]
  rw [hfollow]
  refine ⟨ha.admitted, fun other => ?_, ha.resets⟩
  have honce := ha.once other
  dsimp only
  rw [HashMap.get_insert, List.count_append, List.count_singleton]
  by_cases hsame : other = endpoint
  · subst hsame
    rw [hnew] at honce
    simpa using honce
  · rw [if_neg hsame]
    have hno : (endpoint == other) = false := by simpa using Ne.symm hsame
    rw [hno]
    simpa using honce

/-- A step keeps the admissions right exactly if its segment is not a reset and no SYN completes a handshake. -/
theorem admitsAcks_step {e : ListenerEvent} (ha : AdmitsAcks h) (hs : h.step e = some h') :
    AdmitsAcks h' ↔ h.PlainAck e := by
  cases e with
  | segment srcAddr header =>
    obtain ⟨⟨result, p⟩, hr, hs⟩ := Option.bind_eq_some_iff.mp hs
    cases Option.some.inj hs
    cases PassiveSocket.receive_cases hr with
    | ignored hno =>
      rw [ha.ignored]
      constructor
      · intro hreset accept hentry
        exact ⟨hreset accept hentry, fun hunready hacked => absurd hacked (hno accept hentry hunready)⟩
      · intro hplain accept hentry
        exact (hplain accept hentry).1
    | completes hentry hunready hacked hready =>
      rw [ha.completes hentry hacked hready]
      constructor
      · rintro ⟨hreset, hsyn⟩ accept hentry'
        cases hentry.symm.trans hentry'
        exact ⟨hreset, fun _ _ => hsyn⟩
      · intro hplain
        obtain ⟨hreset, hsyn⟩ := hplain _ hentry
        exact ⟨hreset, hsyn hunready hacked⟩
    | begins hnew =>
      refine ⟨fun _ accept hentry => ?_, fun _ => ha.begins hnew⟩
      cases hnew.symm.trans hentry
  | accept =>
    obtain ⟨⟨result, p⟩, hpoll, hs⟩ := Option.bind_eq_some_iff.mp hs
    cases Option.some.inj hs
    obtain ⟨⟨result', ready⟩, -, hpoll⟩ := Option.bind_eq_some_iff.mp hpoll
    cases Option.some.inj hpoll
    exact ⟨fun _ => trivial, fun _ => ⟨ha.admitted, ha.once, ha.resets⟩⟩
  | migratedIn cb =>
    obtain ⟨p, hpush, hs⟩ := Option.bind_eq_some_iff.mp hs
    cases Option.some.inj hs
    obtain ⟨ready, -, hpush⟩ := Option.bind_eq_some_iff.mp hpush
    cases Option.some.inj hpush
    exact ⟨fun _ => trivial, fun _ => ⟨ha.admitted, ha.once, ha.resets⟩⟩

/-- From a new listener on, the admissions of a run are right exactly if no RST matches a handshake and no ACK that
completes one carries SYN. -/
theorem listenerRun_admits {local_ : SocketAddrV4} {maxBacklog : Nat} {config : TcpConfig} {crc : Buffer → UInt32}
    {nonce : UInt32} {es : List ListenerEvent}
    (hr : run ListenerRun.step (.start (.new local_ maxBacklog config crc nonce)) es = some h) :
    Always ListenerRun.step AdmitsAcks (.start (.new local_ maxBacklog config crc nonce)) es ↔
      Admits ListenerRun.step PlainAck (.start (.new local_ maxBacklog config crc nonce)) es := by
  have hstart : AdmitsAcks (.start (.new local_ maxBacklog config crc nonce)) := by
    refine ⟨fun a ha => (by cases ha), fun endpoint => ?_, fun removed hr => (by cases hr)⟩
    change 0 + (if ((∅ : HashMap SocketAddrV4 InflightAccept).get endpoint).isSome then 1 else 0) ≤ 0
    rw [HashMap.get_empty]
    exact Nat.le_refl 0
  have hstep : ∀ h e h', True → AdmitsAcks h → True → ListenerRun.step h e = some h' →
      (AdmitsAcks h' ↔ h.PlainAck e) ∧ (h.PlainAck e → True) :=
    fun h e h' _ ha _ hs => ⟨admitsAcks_step ha hs, fun _ => trivial⟩
  exact always_iff_admits hstep trivial hstart (admits_of_forall (fun _ _ => trivial) _ es) hr

end ListenerRun

end

namespace ListenerRun

theorem listenerRun_admits_sample : Always ListenerRun.step AdmitsAcks (.start (sampleListener 0))
      [.segment ⟨10, 0, 1, 7⟩ (sampleSyn 1000 2), .segment ⟨10, 0, 1, 7⟩ sampleAck, .accept] := by
  have hgoes : (run ListenerRun.step (.start (sampleListener 0)) [.segment ⟨10, 0, 1, 7⟩ (sampleSyn 1000 2),
      .segment ⟨10, 0, 1, 7⟩ sampleAck, .accept]).isSome = true := rfl
  obtain ⟨h, hr⟩ := Option.isSome_iff_exists.mp hgoes
  exact (listenerRun_admits hr).mpr (by decide)

/-- A reset that acknowledges our SYN completes the handshake. -/
theorem listenerRun_admits_reset : ∃ h, run ListenerRun.step (.start (sampleListener 0))
      [.segment ⟨10, 0, 1, 7⟩ (sampleSyn 1000 2), .segment ⟨10, 0, 1, 7⟩ { sampleAck with rst := true }] = some h ∧
    h.socket.ready.ready.length = 1 ∧ h.resets = [false] ∧ ¬AdmitsAcks h := by
  refine ⟨_, rfl, rfl, rfl, fun ha => ?_⟩
  have hremoved := ha.resets false (List.mem_singleton.mpr rfl)
  cases hremoved

end ListenerRun

end Capybara
