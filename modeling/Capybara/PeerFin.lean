import Capybara.CloseStates

namespace Capybara

open ControlBlock Runs CloseRun

namespace ControlBlock

/-- The sequence number behind the text that a segment at RCV.NXT brings. -/
def textEnd (cb : ControlBlock) (s : Incoming) : SeqNumber :=
  cb.receiver.receiveNext + SeqNumber.ofNat (textOf (cb.arrivals s)).length

/-- The text of a segment at RCV.NXT ends where its FIN is; without a FIN of its own, text that reaches the remembered
FIN is not that of the segment alone. -/
def FinInPlace (cb : ControlBlock) (header : TcpHeader) (data : Buffer) : Prop :=
  ∀ s, cb.processed header data = some s → s.segStart = cb.receiver.receiveNext →
    if s.header.fin = true then cb.textEnd s = s.segEnd
    else cb.outOfOrderFin = some (cb.textEnd s) → 1 < (cb.arrivals s).length

instance (cb : ControlBlock) (header : TcpHeader) (data : Buffer) : Decidable (cb.FinInPlace header data) :=
  have : ∀ s : Incoming, Decidable (if s.header.fin = true then cb.textEnd s = s.segEnd
      else cb.outOfOrderFin = some (cb.textEnd s) → 1 < (cb.arrivals s).length) := by
    intro s
    split <;> infer_instance
  inferInstanceAs (Decidable (∀ s, cb.processed header data = some s → _))

end ControlBlock

/-- A connection, whether a FIN of the peer came inside the window, and how often RCV.NXT moved over a FIN. -/
structure FinRun where
  conn : SocketRun
  heard : Bool
  fins : Nat

namespace FinRun

def start (s : EstablishedSocket) : FinRun := ⟨.start s, false, 0⟩

def cb (c : FinRun) : ControlBlock := c.conn.socket.cb

/-- Whether the event is a segment whose FIN is processed. -/
def hears (c : FinRun) (e : SocketEvent) : Bool :=
  match e with
  | .segment header data => (c.cb.processed header data).any fun s => s.header.fin
  | _ => false

def follow (c : FinRun) (e : SocketEvent) (conn : SocketRun) : FinRun :=
  ⟨conn, c.heard || c.hears e, c.fins + finsTaken c.conn conn⟩

def step (c : FinRun) (e : SocketEvent × Env) : Option FinRun := (c.conn.step e).map (c.follow e.1)

/-- The peer has one FIN, and this is its number. -/
def FinNumbered (fin : SeqNumber) (c : FinRun) (e : SocketEvent × Env) : Prop :=
  match e.1 with
  | .segment header data => ∀ s, c.cb.processed header data = some s → s.header.fin = true → s.segEnd = fin
  | _ => True

def InPlace (c : FinRun) (e : SocketEvent × Env) : Prop :=
  match e.1 with
  | .segment header data => c.cb.FinInPlace header data
  | _ => True

instance (fin : SeqNumber) : (c : FinRun) → (e : SocketEvent × Env) → Decidable (FinNumbered fin c e)
  | c, (.segment header data, _) => inferInstanceAs (Decidable (∀ s, c.cb.processed header data = some s → _))
  | _, (.pop, _) | _, (.push _, _) | _, (.close, _) | _, (.background, _) | _, (.retransmitTimer, _)
  | _, (.fastRetransmit, _) | _, (.ackTimer, _) | _, (.persistTimer, _) => inferInstanceAs (Decidable True)

instance : (c : FinRun) → (e : SocketEvent × Env) → Decidable (InPlace c e)
  | c, (.segment header data, _) => inferInstanceAs (Decidable (c.cb.FinInPlace header data))
  | _, (.pop, _) | _, (.push _, _) | _, (.close, _) | _, (.background, _) | _, (.retransmitTimer, _)
  | _, (.fastRetransmit, _) | _, (.ackTimer, _) | _, (.persistTimer, _) => inferInstanceAs (Decidable True)

/-- The FIN is consumed once, when it has come and RCV.NXT has reached it, and not later. -/
structure OnTime (fin : SeqNumber) (c : FinRun) : Prop where
  once : c.fins ≤ 1
  taken : c.fins ≠ 0 → c.heard = true ∧ c.cb.receiver.receiveNext = fin + SeqNumber.ofNat 1
  waits : c.heard = true → c.fins = 0 → c.cb.receiver.receiveNext ≠ fin

/-- What a run keeps: a FIN that has come and can still be consumed is remembered. -/
structure Follows (fin : SeqNumber) (c : FinRun) : Prop where
  running : Running c.conn
  stored : ∀ number, c.cb.outOfOrderFin = some number → number = fin ∧ c.heard = true
  remembers : c.heard = true → c.fins = 0 → canReceiveData c.cb.state = true → c.cb.outOfOrderFin = some fin
  open_ : c.fins = 0 → canReceiveData c.cb.state = true ∨ c.cb.state = .closed
  shut : c.fins ≠ 0 → canReceiveData c.cb.state = false

end FinRun

/-- A change of state that is not that of the peer's FIN. -/
def StateFollows (state state' : State) : Prop :=
  state' = .closed ∨ (state ≠ .closed ∧ canReceiveData state' = canReceiveData state)

instance (state state' : State) : Decidable (StateFollows state state') := inferInstanceAs (Decidable (_ ∨ _))

theorem StateFollows.refl (state : State) : StateFollows state state := by
  cases state <;> decide

theorem StateFollows.receives {state state' : State} (h : StateFollows state state')
    (hcan : canReceiveData state' = true) : canReceiveData state = true := by
  rcases h with rfl | ⟨-, hkept⟩
  · cases hcan
  · exact hkept.symm.trans hcan

theorem StateFollows.shuts {state state' : State} (h : StateFollows state state') (hshut : canReceiveData state = false) :
    canReceiveData state' = false := by
  rw [← Bool.not_eq_true]
  intro hcan
  rw [h.receives hcan] at hshut
  cases hshut

theorem StateFollows.opens {state state' : State} (h : StateFollows state state')
    (hopen : canReceiveData state = true ∨ state = .closed) : canReceiveData state' = true ∨ state' = .closed := by
  rcases h with hclosed | ⟨hnot, hkept⟩
  · exact .inr hclosed
  · exact .inl (hkept.trans (hopen.resolve_right hnot))

theorem stateAfterAck_follows (state : State) : StateFollows state (stateAfterAck state) := by
  cases state <;> decide

theorem stateAfterFin_follows (state : State) : StateFollows state (stateAfterFin state) := by
  cases state <;> decide

theorem stateAfterPeerFin_shut {state state' : State} (h : stateAfterPeerFin state = some state') :
    canReceiveData state' = false := by
  cases state <;> cases h <;> rfl

/-- Nothing happens to what the peer sends. -/
structure Unmoved (cb cb' : ControlBlock) : Prop where
  receiveNext : cb'.receiver.receiveNext = cb.receiver.receiveNext
  outOfOrderFin : cb'.outOfOrderFin = cb.outOfOrderFin
  state : StateFollows cb.state cb'.state

section

variable {cb cb' cb₁ : ControlBlock} {s : Incoming} {header : TcpHeader} {data : Buffer} {env : Env}
  {sent : Option (SeqNumber × Buffer)} {o : Outbox}

theorem Moves.unmoved (hm : Moves cb cb' sent o) : Unmoved cb cb' := by
  refine ⟨hm.inbound.receiveNext, hm.inbound.outOfOrderFin, ?_⟩
  rw [hm.state, stateAfterSending_eq]
  split
  · exact stateAfterFin_follows cb.state
  · exact .refl cb.state

theorem ControlBlock.AckTakes.unmoved (ha : AckTakes cb header cb₁) : Unmoved cb cb₁ := by
  refine ⟨ha.inbound.receiveNext, ha.inbound.outOfOrderFin, ?_⟩
  rcases ha.acked with ⟨-, rfl⟩ | ⟨-, -, -, -, hstate⟩
  · exact .refl cb₁.state
  · rw [hstate]
    split
    · exact stateAfterAck_follows cb.state
    · exact .refl cb.state

/-- A FIN after RCV.NXT is remembered if it can be consumed later. -/
theorem receiveOutOfOrder_fin (hp : Parsed s) (hsyn : s.header.syn = false) (h : cb.receiveOutOfOrder s env = some cb') :
    cb'.outOfOrderFin =
      if s.header.fin = true ∧ canReceiveData cb.state = true then some s.segEnd else cb.outOfOrderFin := by
  have hlen := hp.segLen
  rw [receiveOutOfOrder_eq hp hsyn] at h
  split at h
  next hcond =>
    obtain ⟨cb₁, hstore, h⟩ := Option.bind_eq_some_iff.mp h
    rw [(sendAck_core h).outOfOrderFin]
    have hkeeps : ∀ {cb₀ : ControlBlock} {start last : SeqNumber}, (if 0 < s.data.length then
        cb₀.storeOutOfOrderSegment start last s.data else some cb₀) = some cb₁ →
          cb₁.outOfOrderFin = cb₀.outOfOrderFin := by
      intro cb₀ start last hstore
      split at hstore
      next =>
        obtain ⟨store, -, hstore⟩ := Option.bind_eq_some_iff.mp hstore
        rw [← Option.some.inj hstore]
      next => rw [← Option.some.inj hstore]
    rw [hkeeps hstore]
    cases hf : s.header.fin with
    | true =>
      rw [if_pos rfl, if_pos ⟨rfl, hcond.2⟩]
      rfl
    | false => simp
  next hcond =>
    cases h
    cases hf : s.header.fin with
    | true =>
      rw [hf, Bool.toNat_true] at hlen
      rw [if_neg fun hc => hcond ⟨by omega, hc.2⟩]
    | false => simp

/-- A segment that is processed is set aside or taken in order. -/
theorem ControlBlock.Processed.received (hp : Processed cb header data s) (hparsed : Parsed s)
    (h : cb.receive header data env = some cb') : ∃ cb₁, AckTakes cb s.header cb₁ ∧
      ((s.segStart ≠ cb.receiver.receiveNext ∧ SetAside cb₁ s cb' ∧ cb'.outOfOrderFin =
        if s.header.fin = true ∧ canReceiveData cb₁.state = true then some s.segEnd else cb₁.outOfOrderFin) ∨
      (s.segStart = cb.receiver.receiveNext ∧ InOrder cb₁ s cb')) := by
  rw [receive, hp.kept, Option.bind_eq_bind, Option.bind_some] at h
  simp only [receiveTrimmed, hp.noRst, hp.noSyn, hp.ack, Bool.false_eq_true, if_false, Bool.not_true] at h
  obtain ⟨taken, htaken, h⟩ := Option.bind_eq_some_iff.mp h
  rcases processAck_cases htaken with ⟨-, hno⟩ | ⟨cb₁, rfl, -, hack⟩
  · exact absurd hp.allows hno
  · refine ⟨cb₁, hack, ?_⟩
    dsimp only at h
    split at h
    next hne =>
      exact .inl ⟨hne, receiveOutOfOrder_cases hparsed hp.noSyn h, receiveOutOfOrder_fin hparsed hp.noSyn h⟩
    next heq =>
      have hstart : s.segStart = cb.receiver.receiveNext := by simpa using heq
      exact .inr ⟨hstart, receiveInOrder_cases (hstart.trans hack.inbound.receiveNext.symm) h⟩

theorem trimToWindow_after (h : cb.trimToWindow header data = some (some s)) :
    cb.receiver.receiveNext.le s.segStart = true := by
  obtain ⟨s₀, -, h⟩ := Option.bind_eq_some_iff.mp h
  obtain ⟨windowSize, -, h⟩ := Option.bind_eq_some_iff.mp h
  obtain ⟨front, -, h⟩ := Option.bind_eq_some_iff.mp h
  cases front with
  | none => cases h
  | some s₁ =>
    obtain ⟨s₂, -, h⟩ := Option.bind_eq_some_iff.mp h
    obtain ⟨_, hassert, h⟩ := Option.bind_eq_some_iff.mp h
    cases h
    unfold debugAssert at hassert
    split at hassert
    next hin =>
      exact (Bool.and_eq_true_iff.mp hin).1
    next => cases hassert

/-- The FIN of a segment that starts after RCV.NXT is not at RCV.NXT. -/
theorem ControlBlock.Parsed.fin_after {receiveNext : SeqNumber} (hp : Parsed s) (hfin : s.header.fin = true)
    (hafter : receiveNext.le s.segStart = true) (hne : s.segStart ≠ receiveNext) : s.segEnd ≠ receiveNext := by
  have hlen := hp.segLen
  have hshort := hp.short
  have hsyn := Bool.toNat_le s.header.syn
  rw [hfin, Bool.toNat_true] at hlen
  have hr := receiveNext.toNat_lt
  have hs := s.segStart.toNat_lt
  have hne : s.segStart.toNat ≠ receiveNext.toNat := fun h => hne (SeqNumber.toNat_inj.mp h)
  rw [SeqNumber.le_iff, SeqNumber.toNat_sub] at hafter
  intro hend
  rw [hp.segEnd (by omega)] at hend
  have hend := congrArg SeqNumber.toNat hend
  rw [SeqNumber.toNat_add_ofNat] at hend
  omega

/-- A FIN at RCV.NXT cannot come again. -/
theorem ControlBlock.Parsed.fin_behind {receiveNext fin : SeqNumber} (hp : Parsed s) (hf : s.header.fin = true)
    (hstart : s.segStart = receiveNext) (hnext : receiveNext = fin + SeqNumber.ofNat 1) : s.segEnd ≠ fin := by
  have hlen := hp.segLen
  have hshort := hp.short
  have hsyn := Bool.toNat_le s.header.syn
  have hn := fin.toNat_lt
  rw [hf, Bool.toNat_true] at hlen
  intro hend
  rw [hp.segEnd (by omega), hstart, hnext] at hend
  have hend := congrArg SeqNumber.toNat hend
  simp only [SeqNumber.toNat_add_ofNat] at hend
  omega

theorem ControlBlock.Received.unprocessed (hr : Received cb header data cb') (hnone : cb.processed header data = none) :
    Unmoved cb cb' ∧ cb'.receiver.recvQueue = cb.receiver.recvQueue := by
  cases hr with
  | dropped hm => exact ⟨hm.unmoved, hm.inbound.recvQueue⟩
  | reset _ _ hstate _ _ hin => exact ⟨⟨hin.receiveNext, hin.outOfOrderFin, .inl hstate⟩, hin.recvQueue⟩
  | setAside hp => cases (processed_eq_some.mpr hp).symm.trans hnone
  | inOrder hp => cases (processed_eq_some.mpr hp).symm.trans hnone

end

namespace FinRun

section

variable {fin : SeqNumber} {c c' : FinRun} {conn : SocketRun} {event : SocketEvent} {cb cb₁ : ControlBlock}
  {header : TcpHeader} {data : Buffer} {s : Incoming} {env : Env}

/-- Nothing of the peer is taken, and no FIN comes. -/
theorem Follows.unmoved (h : Follows fin c) (ht : OnTime fin c) (hrun : Running conn) (hu : Unmoved c.cb conn.socket.cb)
    (hfins : finsTaken c.conn conn = 0) (hheard : c.hears event = false) :
    Follows fin (c.follow event conn) ∧ OnTime fin (c.follow event conn) := by
  have hsame : c.follow event conn = ⟨conn, c.heard, c.fins⟩ := by rw [follow, hheard, hfins, Bool.or_false, Nat.add_zero]
  rw [hsame]
  refine ⟨⟨hrun, ?_, ?_, fun hzero => hu.state.opens (h.open_ hzero), fun hpos => hu.state.shuts (h.shut hpos)⟩,
    ⟨ht.once, ?_, ?_⟩⟩
  · intro number hnumber
    exact h.stored number (hu.outOfOrderFin.symm.trans hnumber)
  · intro hh hzero hcan
    exact hu.outOfOrderFin.trans (h.remembers hh hzero (hu.state.receives hcan))
  · intro hpos
    obtain ⟨hh, hnext⟩ := ht.taken hpos
    exact ⟨hh, hu.receiveNext.trans hnext⟩
  · intro hh hzero hnext
    exact ht.waits hh hzero (hu.receiveNext.symm.trans hnext)

theorem hears_segment (hp : Processed c.cb header data s) : c.hears (.segment header data) = s.header.fin := by
  rw [hears, processed_eq_some.mpr hp]
  rfl

theorem finInPlace_iff (hp : Processed cb header data s) (hstart : s.segStart = cb.receiver.receiveNext) :
    cb.FinInPlace header data ↔ if s.header.fin = true then cb.textEnd s = s.segEnd
      else cb.outOfOrderFin = some (cb.textEnd s) → 1 < (cb.arrivals s).length := by
  constructor
  · intro h
    exact h s (processed_eq_some.mpr hp) hstart
  · intro h s' hs' _
    cases (processed_eq_some.mpr hp).symm.trans hs'
    exact h

theorem arrivals_shut (hs : canReceiveData cb.state = false) (s : Incoming) : cb.arrivals s = [] := by
  rw [arrivals, if_neg]
  rintro ⟨-, hcan⟩
  rw [hs] at hcan
  cases hcan

theorem textEnd_shut (hs : canReceiveData cb.state = false) (s : Incoming) : cb.textEnd s = cb.receiver.receiveNext := by
  rw [textEnd, arrivals_shut hs]
  exact SeqNumber.add_ofNat_zero _

/-- What a segment at RCV.NXT leaves behind. -/
structure TakesText (c : FinRun) (s : Incoming) (conn : SocketRun) : Prop where
  running : Running conn
  fins : finsTaken c.conn conn = (c.cb.finArrives s).toNat
  receiveNext : conn.socket.cb.receiver.receiveNext = c.cb.textEnd s + SeqNumber.ofNat (c.cb.finArrives s).toNat
  outOfOrderFin : conn.socket.cb.outOfOrderFin = c.cb.outOfOrderFin
  shuts : c.cb.finArrives s = true → canReceiveData conn.socket.cb.state = false
  follows : c.cb.finArrives s = false → StateFollows c.cb.state conn.socket.cb.state

theorem takesText_of_inOrder (hrun : Running conn) (hack : AckTakes c.cb s.header cb₁) (hi : InOrder cb₁ s conn.socket.cb)
    (hpopped : conn.popped = c.conn.popped) : TakesText c s conn := by
  have hle := Bool.toNat_le (c.cb.finArrives s)
  have hnext := hi.receiveNext
  have hstate := hi.state
  rw [hack.arrivals, hack.finArrives, hack.inbound.receiveNext] at hnext
  rw [hack.finArrives] at hstate
  refine ⟨hrun, ?_, ?_, hi.outOfOrderFin.trans hack.inbound.outOfOrderFin, ?_, ?_⟩
  · refine @finsTaken_eq c.conn conn (textOf (c.cb.arrivals s)).length _ (by omega) hnext ?_
    rw [bytesTaken, bytesTaken, hpopped, hi.recvQueue, hack.inbound.recvQueue, hack.arrivals, List.flatten_append,
      List.length_append, ← Nat.add_assoc]
    rfl
  · rw [textEnd, SeqNumber.add_ofNat_add]
    exact hnext
  · intro hfa
    rw [if_pos hfa] at hstate
    exact stateAfterPeerFin_shut hstate
  · intro hfa
    rw [if_neg (by simp [hfa])] at hstate
    rw [hstate]
    exact hack.unmoved.state

theorem TakesText.follow (h : TakesText c s conn) (hp : Processed c.cb header data s) :
    c.follow (.segment header data) conn =
      ⟨conn, c.heard || s.header.fin, c.fins + (c.cb.finArrives s).toNat⟩ := by
  rw [FinRun.follow, hears_segment hp, h.fins]

/-- After the FIN nothing arrives any more. -/
theorem Follows.inOrder_shut (h : Follows fin c) (ht : OnTime fin c) (hx : TakesText c s conn) (hpos : c.fins ≠ 0)
    (hnofin : s.header.fin = false) : Follows fin ⟨conn, c.heard || s.header.fin, c.fins + (c.cb.finArrives s).toNat⟩ ∧
      OnTime fin ⟨conn, c.heard || s.header.fin, c.fins + (c.cb.finArrives s).toNat⟩ ∧
      c.cb.outOfOrderFin ≠ some (c.cb.textEnd s) := by
  obtain ⟨hh, hnext⟩ := ht.taken hpos
  have hfa : c.cb.finArrives s = false := by
    simp [finArrives, hnofin, arrivals_shut (h.shut hpos)]
  have hend := textEnd_shut (h.shut hpos) s
  have hmoved := hx.receiveNext
  rw [hfa, Bool.toNat_false, SeqNumber.add_ofNat_zero, hend, hnext] at hmoved
  rw [hfa, hnofin, Bool.or_false, Bool.toNat_false, Nat.add_zero, hend, hnext]
  refine ⟨⟨hx.running, ?_, ?_, ?_, fun _ => (hx.follows hfa).shuts (h.shut hpos)⟩,
    ⟨ht.once, fun _ => ⟨hh, hmoved⟩, ?_⟩, ?_⟩
  · intro number hnumber
    exact h.stored number (hx.outOfOrderFin.symm.trans hnumber)
  · intro _ hzero
    exact absurd hzero hpos
  · intro hzero
    exact absurd hzero hpos
  · intro _ hzero
    exact absurd hzero hpos
  · intro hsome
    have hsucc := congrArg SeqNumber.toNat (h.stored _ hsome).1
    have hn := fin.toNat_lt
    rw [SeqNumber.toNat_add_ofNat] at hsucc
    omega

/-- The FIN is consumed; it is on time if the text ended where it is. -/
theorem Follows.inOrder_takes (h : Follows fin c) (hx : TakesText c s conn) (hzero : c.fins = 0)
    (hfa : c.cb.finArrives s = true) (hheard : (c.heard || s.header.fin) = true) :
    Follows fin ⟨conn, c.heard || s.header.fin, c.fins + (c.cb.finArrives s).toNat⟩ ∧
      (OnTime fin ⟨conn, c.heard || s.header.fin, c.fins + (c.cb.finArrives s).toNat⟩ ↔ c.cb.textEnd s = fin) := by
  have hmoved := hx.receiveNext
  have hone : c.fins + (c.cb.finArrives s).toNat = 1 := by rw [hfa, hzero, Bool.toNat_true]
  rw [hfa, Bool.toNat_true] at hmoved
  rw [hone, hheard]
  refine ⟨⟨hx.running, ?_, ?_, ?_, fun _ => hx.shuts hfa⟩, ?_, ?_⟩
  · intro number hnumber
    exact ⟨(h.stored number (hx.outOfOrderFin.symm.trans hnumber)).1, rfl⟩
  · intro _ hno
    cases hno
  · intro hno
    cases hno
  · intro ht
    have hsucc := congrArg SeqNumber.toNat (hmoved.symm.trans (ht.taken Nat.one_ne_zero).2)
    have hn := fin.toNat_lt
    have he := (c.cb.textEnd s).toNat_lt
    simp only [SeqNumber.toNat_add_ofNat] at hsucc
    apply SeqNumber.toNat_inj.mp
    omega
  · intro hend
    refine ⟨Nat.le_refl 1, fun _ => ⟨rfl, ?_⟩, fun _ hno => by cases hno⟩
    rw [← hend]
    exact hmoved

/-- Text comes in order that does not bring the FIN with it; that is on time if the FIN is not where the text ends. -/
theorem Follows.inOrder_text (h : Follows fin c) (ht : OnTime fin c) (hx : TakesText c s conn) (hzero : c.fins = 0)
    (hfa : c.cb.finArrives s = false) (hnofin : s.header.fin = false) :
    Follows fin ⟨conn, c.heard || s.header.fin, c.fins + (c.cb.finArrives s).toNat⟩ ∧
      (OnTime fin ⟨conn, c.heard || s.header.fin, c.fins + (c.cb.finArrives s).toNat⟩ ↔
        c.cb.outOfOrderFin ≠ some (c.cb.textEnd s)) := by
  have hmoved := hx.receiveNext
  rw [hfa, Bool.toNat_false, SeqNumber.add_ofNat_zero] at hmoved
  rw [hfa, hnofin, Bool.or_false, Bool.toNat_false, Nat.add_zero]
  have hstate := hx.follows hfa
  refine ⟨⟨hx.running, ?_, ?_, fun _ => hstate.opens (h.open_ hzero), fun hpos => absurd hzero hpos⟩, ?_, ?_⟩
  · intro number hnumber
    exact h.stored number (hx.outOfOrderFin.symm.trans hnumber)
  · intro hh _ hcan
    exact hx.outOfOrderFin.trans (h.remembers hh hzero (hstate.receives hcan))
  · intro ht' hsome
    obtain ⟨hend, hh⟩ := h.stored _ hsome
    exact ht'.waits hh hzero (hmoved.trans hend)
  · intro hplace
    refine ⟨ht.once, fun hpos => absurd hzero hpos, fun hh _ hnext => ?_⟩
    have hend : c.cb.textEnd s = fin := hmoved.symm.trans hnext
    cases hcan : canReceiveData c.cb.state with
    | true => exact hplace (by rw [hend]; exact h.remembers hh hzero hcan)
    | false => exact ht.waits hh hzero ((textEnd_shut hcan s).symm.trans hend)

/-- A segment at RCV.NXT takes the FIN on time exactly if the FIN is in place. -/
theorem Follows.inOrder (h : Follows fin c) (ht : OnTime fin c) (hx : TakesText c s conn)
    (hp : Processed c.cb header data s) (hparsed : Parsed s) (hnumber : s.header.fin = true → s.segEnd = fin)
    (hstart : s.segStart = c.cb.receiver.receiveNext) : Follows fin (c.follow (.segment header data) conn) ∧
      (OnTime fin (c.follow (.segment header data) conn) ↔ c.cb.FinInPlace header data) := by
  rw [hx.follow hp, finInPlace_iff hp hstart]
  have harrives : c.cb.finArrives s = (s.header.fin || (decide (1 < (c.cb.arrivals s).length) &&
      c.cb.outOfOrderFin == some (c.cb.textEnd s))) := rfl
  by_cases hzero : c.fins = 0
  · cases hf : s.header.fin with
    | true =>
      have hfa : c.cb.finArrives s = true := by rw [harrives, hf, Bool.true_or]
      obtain ⟨hfollows, hiff⟩ := h.inOrder_takes hx hzero hfa (by rw [hf, Bool.or_true])
      rw [hf] at hfollows hiff
      refine ⟨hfollows, hiff.trans ?_⟩
      rw [if_pos rfl, hnumber hf]
    | false =>
      rw [hf, Bool.false_or] at harrives
      cases hfa : c.cb.finArrives s with
      | true =>
        rw [hfa] at harrives
        obtain ⟨hlong, hsome⟩ := Bool.and_eq_true_iff.mp harrives.symm
        have hsome : c.cb.outOfOrderFin = some (c.cb.textEnd s) := by simpa using hsome
        obtain ⟨hend, hh⟩ := h.stored _ hsome
        obtain ⟨hfollows, hiff⟩ := h.inOrder_takes hx hzero hfa (by rw [hh, Bool.true_or])
        rw [hf, hfa] at hfollows hiff
        refine ⟨hfollows, hiff.trans ⟨fun _ => ?_, fun _ => hend⟩⟩
        rw [if_neg (by simp)]
        exact fun _ => of_decide_eq_true hlong
      | false =>
        obtain ⟨hfollows, hiff⟩ := h.inOrder_text ht hx hzero hfa hf
        rw [hf, hfa] at hfollows hiff
        refine ⟨hfollows, hiff.trans ?_⟩
        rw [if_neg (by simp)]
        rw [hfa] at harrives
        constructor
        · intro hne hsome
          exact absurd hsome hne
        · intro hplace hsome
          have hlong := hplace hsome
          simp [hlong, hsome] at harrives
  · have hnofin : s.header.fin = false := by
      rw [← Bool.not_eq_true]
      intro hf
      exact hparsed.fin_behind hf hstart (ht.taken hzero).2 (hnumber hf)
    obtain ⟨hfollows, ht', hne⟩ := h.inOrder_shut ht hx hzero hnofin
    refine ⟨hfollows, fun _ => ?_, fun _ => ht'⟩
    rw [if_neg (by simp [hnofin])]
    intro hsome
    exact absurd hsome hne

/-- A segment after RCV.NXT is set aside; its FIN waits. -/
theorem Follows.setAside (h : Follows fin c) (ht : OnTime fin c) (hrun : Running conn)
    (hp : Processed c.cb header data s) (hparsed : Parsed s) (hnumber : s.header.fin = true → s.segEnd = fin)
    (hack : AckTakes c.cb s.header cb₁) (hne : s.segStart ≠ c.cb.receiver.receiveNext)
    (hs : SetAside cb₁ s conn.socket.cb) (hstored : conn.socket.cb.outOfOrderFin =
      if s.header.fin = true ∧ canReceiveData cb₁.state = true then some s.segEnd else cb₁.outOfOrderFin)
    (hpopped : conn.popped = c.conn.popped) : Follows fin (c.follow (.segment header data) conn) ∧
      OnTime fin (c.follow (.segment header data) conn) := by
  have hnext : conn.socket.cb.receiver.receiveNext = c.cb.receiver.receiveNext := by
    rw [hs.receiver]
    exact hack.inbound.receiveNext
  have hqueue : conn.socket.cb.receiver.recvQueue = c.cb.receiver.recvQueue := by
    rw [hs.receiver]
    exact hack.inbound.recvQueue
  have hfins : finsTaken c.conn conn = 0 := finsTaken_same hnext (by rw [bytesTaken, bytesTaken, hpopped, hqueue]; rfl)
  have hfollows : StateFollows c.cb.state conn.socket.cb.state := by
    rw [hs.state]
    exact hack.unmoved.state
  rw [hack.canReceiveData, hack.inbound.outOfOrderFin] at hstored
  cases hf : s.header.fin with
  | false =>
    rw [hf, if_neg (by simp)] at hstored
    exact h.unmoved ht hrun ⟨hnext, hstored, hfollows⟩ hfins ((hears_segment hp).trans hf)
  | true =>
    have hend := hnumber hf
    rw [hf, hend] at hstored
    have hfollow : c.follow (.segment header data) conn = ⟨conn, true, c.fins⟩ := by
      rw [FinRun.follow, hears_segment hp, hfins, hf, Bool.or_true, Nat.add_zero]
    rw [hfollow]
    refine ⟨⟨hrun, ?_, ?_, fun hzero => hfollows.opens (h.open_ hzero), fun hpos => hfollows.shuts (h.shut hpos)⟩,
      ⟨ht.once, ?_, ?_⟩⟩
    · intro number hnumber
      refine ⟨?_, rfl⟩
      change conn.socket.cb.outOfOrderFin = some number at hnumber
      rw [hstored] at hnumber
      split at hnumber
      next => exact (Option.some.inj hnumber).symm
      next => exact (h.stored number hnumber).1
    · intro _ _ hcan
      exact hstored.trans (if_pos ⟨rfl, hfollows.receives hcan⟩)
    · intro hpos
      exact ⟨rfl, hnext.trans (ht.taken hpos).2⟩
    · intro _ _ hreached
      exact hparsed.fin_after hf (trimToWindow_after hp.kept) hne (hend.trans (hreached.symm.trans hnext))

theorem segment_onTime (h : Follows fin c) (ht : OnTime fin c) (hd : data.length < 2 ^ 16)
    (hnumber : FinNumbered fin c (.segment header data, env)) (hrun : Running conn)
    (hr : c.cb.receive header data env = some conn.socket.cb) (hpopped : conn.popped = c.conn.popped) :
    Follows fin (c.follow (.segment header data) conn) ∧
      (OnTime fin (c.follow (.segment header data) conn) ↔ c.cb.FinInPlace header data) := by
  have hparsed : ∀ s, c.cb.trimToWindow header data = some (some s) → Parsed s := fun s hs =>
    trimToWindow_parsed hd h.running.buffer hs
  cases hprocessed : c.cb.processed header data with
  | none =>
    obtain ⟨hu, hqueue⟩ := (receive_cases hparsed hr).unprocessed hprocessed
    have hheard : c.hears (.segment header data) = false := by rw [hears, hprocessed]; rfl
    have hfins : finsTaken c.conn conn = 0 :=
      finsTaken_same hu.receiveNext (by rw [bytesTaken, bytesTaken, hpopped, hqueue]; rfl)
    obtain ⟨hfollows, ht'⟩ := h.unmoved ht hrun hu hfins hheard
    refine ⟨hfollows, fun _ => ?_, fun _ => ht'⟩
    intro s hs
    cases hprocessed.symm.trans hs
  | some s =>
    have hp := processed_eq_some.mp hprocessed
    obtain ⟨cb₁, hack, ⟨hne, haside, hstored⟩ | ⟨hstart, hi⟩⟩ := hp.received (hparsed s hp.kept) hr
    · obtain ⟨hfollows, ht'⟩ :=
        h.setAside ht hrun hp (hparsed s hp.kept) (hnumber s hprocessed) hack hne haside hstored hpopped
      refine ⟨hfollows, fun _ => ?_, fun _ => ht'⟩
      intro s' hs' hstart
      cases hprocessed.symm.trans hs'
      exact absurd hstart hne
    · exact h.inOrder ht (takesText_of_inOrder hrun hack hi hpopped) hp (hparsed s hp.kept) (hnumber s hprocessed) hstart

/-- No other event moves RCV.NXT. -/
theorem other_unmoved {r r' : SocketRun} {event : SocketEvent} (hne : ∀ header data, event ≠ .segment header data)
    (hs : SocketStep r event env r') : Unmoved r.socket.cb r'.socket.cb ∧ finsTaken r r' = 0 := by
  have hsent : ∀ {cb : ControlBlock} {sent o}, Moves r.socket.cb cb sent o → r'.socket.cb.state = cb.state →
      SameInbound cb r'.socket.cb → r'.popped = r.popped →
        Unmoved r.socket.cb r'.socket.cb ∧ finsTaken r r' = 0 := by
    intro cb sent o hm hstate hin hpopped
    have hu := hm.unmoved
    refine ⟨⟨hin.receiveNext.trans hu.receiveNext, hin.outOfOrderFin.trans hu.outOfOrderFin, ?_⟩,
      finsTaken_outbound (hm.inbound.trans hin) hpopped⟩
    rw [hstate]
    exact hu.state
  cases hs with
  | @received header data he => exact absurd he (hne header data)
  | popped _ hcb _ hpopped =>
    refine ⟨?_, finsTaken_popped hcb hpopped⟩
    rw [hcb, pollRecv]
    unfold Receiver.pop
    split
    next => exact ⟨rfl, rfl, .refl _⟩
    next hpop =>
      split at hpop
      next => cases hpop
      next =>
        cases hpop
        exact ⟨rfl, rfl, .refl _⟩
  | refused hsocket hpopped =>
    have hcb : r'.socket.cb = r.socket.cb := congrArg EstablishedSocket.cb hsocket
    rw [hcb]
    exact ⟨⟨rfl, rfl, .refl _⟩, finsTaken_outbound (hcb ▸ .refl _) hpopped⟩
  | sentNow hh _ _ _ hm _ hpopped => exact hsent hm hh.same.state hh.same.inbound hpopped
  | queued hh _ _ _ hm _ hpopped => exact hsent hm hh.same.state hh.same.inbound hpopped
  | turn _ ht hpopped =>
    obtain ⟨sent, o, hm, -⟩ := ht.moves
    exact hsent hm rfl (.refl _) hpopped
  | resent _ _ hm _ hpopped => exact hsent hm rfl (.refl _) hpopped

/-- A step keeps the FIN on time exactly if the FIN is in place. -/
theorem onTime_step {e : SocketEvent × Env} (h : Follows fin c) (ht : OnTime fin c) (hd : c.conn.FitsPacket e)
    (hnumber : FinNumbered fin c e) (hs : c.step e = some c') : Follows fin c' ∧ (OnTime fin c' ↔ c.InPlace e) := by
  obtain ⟨conn, hconn, rfl⟩ := Option.map_eq_some_iff.mp hs
  obtain ⟨hstep, hrun⟩ := h.running.step hd hconn
  obtain ⟨event, env⟩ := e
  by_cases hseg : ∃ header data, event = .segment header data
  · obtain ⟨header, data, rfl⟩ := hseg
    obtain ⟨t, hsocket, rfl⟩ := Option.map_eq_some_iff.mp hconn
    obtain ⟨cb', hreceive, hsocket⟩ := Option.bind_eq_some_iff.mp hsocket
    cases Option.some.inj hsocket
    exact segment_onTime h ht hd hnumber hrun hreceive rfl
  · have hne : ∀ header data, event ≠ .segment header data := fun header data he => hseg ⟨header, data, he⟩
    obtain ⟨hu, hfins⟩ := other_unmoved hne hstep
    have hquiet : c.hears event = false ∧ c.InPlace (event, env) := by
      cases event with
      | segment header data => exact absurd rfl (hne header data)
      | _ => exact ⟨rfl, trivial⟩
    obtain ⟨hfollows, ht'⟩ := h.unmoved ht hrun hu hfins hquiet.1
    exact ⟨hfollows, fun _ => hquiet.2, fun _ => ht'⟩

theorem Opened.follows {cb : ControlBlock} (h : Opened cb) :
    Follows fin (.start ⟨cb, .top⟩) ∧ OnTime fin (.start ⟨cb, .top⟩) := by
  refine ⟨⟨h.running, ?_, fun hh => (by cases hh), fun _ => .inl ?_, fun hpos => absurd rfl hpos⟩,
    ⟨Nat.zero_le 1, fun hpos => absurd rfl hpos, fun hh => (by cases hh)⟩⟩
  · intro number hnumber
    cases h.outOfOrderFin.symm.trans hnumber
  · change canReceiveData cb.state = true
    rw [h.state]
    rfl

/-- In a run in which the peer has one FIN it is consumed once and on time exactly if no segment at RCV.NXT finds text
behind the FIN, or reaches the remembered FIN alone. -/
theorem finRun_onTime {cb : ControlBlock} {es : List (SocketEvent × Env)} (ho : Opened cb)
    (hp : Admits FinRun.step (fun c => c.conn.FitsPacket) (.start ⟨cb, .top⟩) es)
    (hnumber : Admits FinRun.step (FinNumbered fin) (.start ⟨cb, .top⟩) es)
    (hr : run FinRun.step (.start ⟨cb, .top⟩) es = some c) :
    Always FinRun.step (OnTime fin) (.start ⟨cb, .top⟩) es ↔ Admits FinRun.step InPlace (.start ⟨cb, .top⟩) es := by
  obtain ⟨hfollows, ht⟩ := @Opened.follows fin cb ho
  refine always_iff_admits ?_ hfollows ht (hp.and hnumber) hr
  intro c e c' h ht hpre hs
  obtain ⟨h', hiff⟩ := onTime_step h ht hpre.1 hpre.2 hs
  exact ⟨hiff, fun _ => h'⟩

end

/-- A FIN that comes first, then the stored text before it and the hole. -/
theorem finRun_onTime_sample : Always FinRun.step (OnTime ⟨43⟩) (.start ⟨smallWindow, .top⟩)
      [(.segment (peerHeader ⟨43⟩ true) [], linkEnv), (.segment (peerHeader ⟨41⟩ false) [2, 3], linkEnv),
        (.segment (peerHeader ⟨40⟩ false) [1], linkEnv)] := by
  have hp : Admits FinRun.step (fun c => c.conn.FitsPacket) (.start ⟨smallWindow, .top⟩)
      [(.segment (peerHeader ⟨43⟩ true) [], linkEnv), (.segment (peerHeader ⟨41⟩ false) [2, 3], linkEnv),
        (.segment (peerHeader ⟨40⟩ false) [1], linkEnv)] := by decide
  exact (finRun_onTime smallWindow_opened hp (by decide) rfl).mpr (by decide)

/-- A FIN that comes first, and then all the text before it in one segment: RCV.NXT is at the FIN and stays there. -/
theorem finRun_onTime_late : ∃ c, Opened smallWindow ∧ Admits FinRun.step (FinNumbered ⟨41⟩) (.start ⟨smallWindow, .top⟩)
      [(.segment (peerHeader ⟨41⟩ true) [], linkEnv), (.segment (peerHeader ⟨40⟩ false) [1], linkEnv)] ∧
    run FinRun.step (.start ⟨smallWindow, .top⟩)
      [(.segment (peerHeader ⟨41⟩ true) [], linkEnv), (.segment (peerHeader ⟨40⟩ false) [1], linkEnv)] = some c ∧
    c.heard = true ∧ c.fins = 0 ∧ c.cb.receiver.receiveNext = ⟨41⟩ ∧ ¬OnTime ⟨41⟩ c := by
  refine ⟨_, smallWindow_opened, by decide, rfl, rfl, rfl, rfl, ?_⟩
  exact fun ht => ht.waits rfl rfl rfl

end FinRun

end Capybara
