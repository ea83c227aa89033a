import Capybara.TcpMigPeer
import Capybara.Lib.Runs

namespace Capybara

open Runs

inductive AppStateEvent
  | registerApplicationState (remote : SocketAddrV4) (state : ApplicationState)
  | getMigratedApplicationState (decode : Buffer → ApplicationState) (remote : SocketAddrV4)
  | receive (ipv4Hdr : Ipv4Header) (buf : Buffer)
  | sendTcpState (state : TcpState)
  | initiateMigration (conn : Endpoints) (qd : QDesc)
  | tryBufferPacket (remote : SocketAddrV4) (tcpHdr : TcpHeader) (data : Buffer)
  | closeActiveMigration (remote : SocketAddrV4)
  | setPort (port : UInt16)

/-- A registered state after the application has written into it. -/
def MigratedApplicationState.written (write : ApplicationState → ApplicationState) :
    MigratedApplicationState → MigratedApplicationState
  | .registered state => .registered (write state)
  | entry => entry

/-- What `send_tcp_state` transmits for a connection is its state with the application state in it. -/
def TcpMigPeer.Exports (p : TcpMigPeer) (cb : ControlBlockState) (state : ApplicationState) : Prop :=
  (p.sendTcpState ⟨cb, .none⟩).map TcpMigPeer.rt = do
    let active ← p.activeMigrations.get cb.remote
    let (_, out) ← active.sendConnectionState ⟨cb, .registered state⟩
    some (p.rt ++ out)

def receivedState : Except Fail TcpmigReceiveStatus → Option TcpState
  | .ok (.stateReceived state) => some state
  | _ => none

/-- The connection state that a message completes, as it came. -/
def TcpMigPeer.completedBy (p : TcpMigPeer) (hdr : TcpMigHeader) (buf : Buffer) : Option TcpState := do
  let active ← p.activeMigrations.get hdr.client
  let (result, _, _) ← active.processPacket hdr buf
  receivedState result

def TcpMigPeer.arriving (p : TcpMigPeer) (ipv4Hdr : Ipv4Header) (buf : Buffer) : Option TcpState :=
  match TcpMigHeader.parse ipv4Hdr buf with
  | .error _ => none
  | .ok (hdr, buf) => p.completedBy hdr buf

/-- A peer, and for every remote the application state that was registered or came with its connection last. -/
structure AppStateRun where
  peer : TcpMigPeer
  held : SocketAddrV4 → Option MigratedApplicationState

namespace AppStateRun

def start (localLinkAddr : MacAddress) (localIpv4Addr : Ipv4Addr) : AppStateRun :=
  ⟨.new localLinkAddr localIpv4Addr, fun _ => none⟩

def hold (h : AppStateRun) (remote : SocketAddrV4) (entry : Option MigratedApplicationState) :
    SocketAddrV4 → Option MigratedApplicationState :=
  Function.update h.held remote entry

/-- What comes with a connection replaces what is held for its remote. -/
def imported (h : AppStateRun) (arrived : Option TcpState) : SocketAddrV4 → Option MigratedApplicationState :=
  match arrived with
  | some ⟨cb, .migratedIn buf⟩ => h.hold cb.remote (some (.migratedIn buf))
  | _ => h.held

/-- The first read of an imported state registers what it decodes to; no other read changes what is held. -/
def readBy (h : AppStateRun) (decode : Buffer → ApplicationState) (remote : SocketAddrV4) :
    SocketAddrV4 → Option MigratedApplicationState :=
  match h.held remote with
  | some (.migratedIn buf) => h.hold remote (some (.registered (decode buf)))
  | _ => h.held

def step (h : AppStateRun) : AppStateEvent → Option AppStateRun
  | .registerApplicationState remote state =>
    some ⟨h.peer.registerApplicationState remote state, h.hold remote (some (.registered state))⟩
  | .getMigratedApplicationState decode remote =>
    some ⟨(h.peer.getMigratedApplicationState decode remote).2, h.readBy decode remote⟩
  | .receive ipv4Hdr buf => do
    let (_, p) ← h.peer.receive ipv4Hdr buf
    some ⟨p, h.imported (h.peer.arriving ipv4Hdr buf)⟩
  | .sendTcpState state => do
    let p ← h.peer.sendTcpState state
    some ⟨p, h.hold state.cb.remote none⟩
  | .initiateMigration conn qd => do
    let p ← h.peer.initiateMigration conn qd
    some { h with peer := p }
  | .tryBufferPacket remote tcpHdr data => some { h with peer := (h.peer.tryBufferPacket remote tcpHdr data).getD h.peer }
  | .closeActiveMigration remote => some { h with peer := (h.peer.closeActiveMigration remote).2 }
  | .setPort port => some { h with peer := h.peer.setPort port }

/-- The next `send_tcp_state` for a remote exports the state held for it, whatever migrations are active by then and
whatever the application has written into the state. -/
def Keeps (h : AppStateRun) : Prop :=
  ∀ (p : TcpMigPeer) (write : ApplicationState → ApplicationState) (cb : ControlBlockState) (state : ApplicationState),
    h.held cb.remote = some (.registered state) →
    p.applicationState.get cb.remote = (h.peer.applicationState.get cb.remote).map (.written write) →
    p.Exports cb (write state)

/-- Nothing registered is read. -/
def ReadsImported (h : AppStateRun) : AppStateEvent → Prop
  | .getMigratedApplicationState _ remote =>
    ∀ state, h.peer.applicationState.get remote ≠ some (.registered state)
  | _ => True

/-- What is held is what the peer has, and it is an application state. -/
structure Synced (h : AppStateRun) : Prop where
  same : ∀ remote, h.peer.applicationState.get remote = h.held remote
  isState : ∀ remote, h.held remote ≠ some .none

end AppStateRun

section

variable {p p' : TcpMigPeer} {remote : SocketAddrV4} {result : Except Fail TcpmigReceiveStatus}

namespace TcpMigPeer

/-- The entries after a connection state was taken in. -/
def importedBy (p : TcpMigPeer) : Option TcpState → HashMap SocketAddrV4 MigratedApplicationState
  | some ⟨cb, .migratedIn buf⟩ => p.applicationState.insert cb.remote (.migratedIn buf)
  | _ => p.applicationState

theorem takeAppState_applicationState (p : TcpMigPeer) (state : TcpState) :
    (p.takeAppState state).2.applicationState = p.importedBy (some state) := by
  obtain ⟨cb, appState⟩ := state
  cases appState <;> rfl

theorem finishPacket_applicationState {status : TcpmigReceiveStatus}
    (h : p.finishPacket remote status = some (result, p')) :
    p'.applicationState = p.importedBy (receivedState (.ok status)) := by
  unfold finishPacket at h
  split at h
  next => cases h; rfl
  next => cases h; rfl
  next state => cases h; exact p.takeAppState_applicationState state
  next => cases h; rfl
  next => cases h; rfl
  next => cases h; rfl
  next => cases h
  next => cases h

theorem processPacket_applicationState {hdr : TcpMigHeader} {buf : Buffer}
    (h : p.processPacket hdr buf = some (result, p')) :
    p'.applicationState = p.importedBy (p.completedBy hdr buf) := by
  obtain ⟨active, hactive, h⟩ := Option.bind_eq_some_iff.mp h
  obtain ⟨⟨outcome, active', out⟩, hprocess, h⟩ := Option.bind_eq_some_iff.mp h
  have hcompleted : p.completedBy hdr buf = receivedState outcome := by
    simp only [completedBy, hactive, hprocess, Option.bind_eq_bind, Option.bind_some]
  rw [hcompleted]
  cases outcome with
  | error e =>
    cases h
    rfl
  | ok status =>
    have hfinish := @finishPacket_applicationState (p.setActive hdr.client active' out) _ _ _ _ h
    rw [hfinish]
    rfl

/-- Only CONNECTION_STATE messages complete a connection state. -/
theorem completedBy_stage {hdr : TcpMigHeader} {buf : Buffer} (hstage : hdr.stage ≠ .connectionState) :
    p.completedBy hdr buf = none := by
  cases hactive : p.activeMigrations.get hdr.client with
  | none => simp only [completedBy, hactive, Option.bind_eq_bind, Option.bind_none]
  | some active =>
    cases hprocess : active.processPacket hdr buf with
    | none => simp only [completedBy, hactive, hprocess, Option.bind_eq_bind, Option.bind_some, Option.bind_none]
    | some outcome =>
      simp only [completedBy, hactive, hprocess, Option.bind_eq_bind, Option.bind_some]
      unfold ActiveMigration.processPacket at hprocess
      split at hprocess
      next =>
        split at hprocess
        next =>
          unfold ActiveMigration.acceptMigration at hprocess
          obtain ⟨_, -, hprocess⟩ := Option.bind_eq_some_iff.mp hprocess
          cases hprocess
          rfl
        next => cases hprocess; rfl
      next =>
        split at hprocess
        next =>
          obtain ⟨_, -, hprocess⟩ := Option.bind_eq_some_iff.mp hprocess
          cases hprocess
          rfl
        next => cases hprocess; rfl
        next => cases hprocess; rfl
      next =>
        split at hprocess
        next hstate => exact absurd hstate hstage
        next => cases hprocess; rfl
      next =>
        split at hprocess
        next => cases hprocess; rfl
        next => cases hprocess; rfl
      next => cases hprocess; rfl
      all_goals cases hprocess

theorem receive_applicationState {ipv4Hdr : Ipv4Header} {buf : Buffer} (h : p.receive ipv4Hdr buf = some (result, p')) :
    p'.applicationState = p.importedBy (p.arriving ipv4Hdr buf) := by
  unfold receive at h
  unfold arriving
  cases hparse : TcpMigHeader.parse ipv4Hdr buf with
  | error e =>
    rw [hparse] at h
    cases h
    rfl
  | ok message =>
    obtain ⟨hdr, payload⟩ := message
    rw [hparse] at h
    dsimp only at h ⊢
    unfold receiveMessage at h
    split at h
    next hstage =>
      rw [completedBy_stage (by rw [hstage]; decide)]
      split at h
      next => cases h
      next =>
        cases h
        rfl
    next hstage =>
      rw [completedBy_stage (by rw [hstage]; decide)]
      unfold receivePrepare at h
      dsimp only at h
      split at h
      next =>
        cases h
        rfl
      next =>
        have hpacket := processPacket_applicationState h
        rw [completedBy_stage (by rw [hstage]; decide)] at hpacket
        exact hpacket
    next => exact processPacket_applicationState h

theorem initiateMigration_applicationState {conn : Endpoints} {qd : QDesc} (h : p.initiateMigration conn qd = some p') :
    p'.applicationState = p.applicationState := by
  unfold initiateMigration at h
  split at h
  next => cases h
  next =>
    obtain ⟨⟨active, out⟩, -, h⟩ := Option.bind_eq_some_iff.mp h
    cases h
    rfl

theorem sendTcpState_applicationState {state : TcpState} (h : p.sendTcpState state = some p') :
    p'.applicationState = p.applicationState.remove state.cb.remote := by
  obtain ⟨active, -, h⟩ := Option.bind_eq_some_iff.mp h
  obtain ⟨⟨active', out⟩, -, h⟩ := Option.bind_eq_some_iff.mp h
  cases h
  rfl

theorem tryBufferPacket_applicationState (p : TcpMigPeer) (remote : SocketAddrV4) (tcpHdr : TcpHeader) (data : Buffer) :
    ((p.tryBufferPacket remote tcpHdr data).getD p).applicationState = p.applicationState := by
  unfold tryBufferPacket
  cases p.activeMigrations.get remote <;> rfl

/-- A registered state goes with its connection. -/
theorem exports_registered {cb : ControlBlockState} {state : ApplicationState}
    (h : p.applicationState.get cb.remote = some (.registered state)) : p.Exports cb state := by
  unfold Exports sendTcpState addAppState
  dsimp only
  rw [h]
  dsimp only
  cases hactive : p.activeMigrations.get cb.remote with
  | none => rfl
  | some active =>
    simp only [Option.bind_eq_bind, Option.bind_some]
    cases active.sendConnectionState ⟨cb, .registered state⟩ with
    | none => rfl
    | some sent => rfl

/-- The application state that goes out for an entry. -/
def exported : Option MigratedApplicationState → MigratedApplicationState
  | some (.registered state) => .registered state
  | _ => .none

theorem addAppState_exported (p : TcpMigPeer) (cb : ControlBlockState) :
    p.addAppState ⟨cb, .none⟩ = ⟨cb, exported (p.applicationState.get cb.remote)⟩ := by
  unfold addAppState exported
  dsimp only
  cases p.applicationState.get cb.remote with
  | none => rfl
  | some entry =>
    cases entry with
    | registered state => rfl
    | migratedIn buf => rfl
    | none => rfl

/-- What a peer exports is the state that it has for the remote. -/
theorem Exports.sent {cb : ControlBlockState} {state : ApplicationState} {active : ActiveMigration}
    (hactive : p.activeMigrations.get cb.remote = some active) (hstage : active.lastSentStage = .prepareMigration)
    (hfits : cb.Fits) (hsize : Pieces.count maxFragmentSize (TcpState.mk cb (.registered state)).serializedSize < 2 ^ 16)
    (h : p.Exports cb state) :
    (exported (p.applicationState.get cb.remote)).encode = (MigratedApplicationState.registered state).encode := by
  obtain ⟨⟨active₁, out⟩, hsent⟩ := Option.isSome_iff_exists.mp
    ((active.sendConnectionState_isSome_iff ⟨cb, .registered state⟩).mpr ⟨hstage, hfits, hsize⟩)
  simp only [Exports, sendTcpState, hactive, hsent, addAppState_exported, Option.bind_eq_bind, Option.bind_some] at h
  obtain ⟨p', hp, hrt⟩ := Option.map_eq_some_iff.mp h
  obtain ⟨⟨active₂, out'⟩, hsent', hp⟩ := Option.bind_eq_some_iff.mp hp
  cases hp
  cases List.append_cancel_left hrt
  have hdata := ActiveMigration.sendConnectionState_data hsent
  have hdata' := ActiveMigration.sendConnectionState_data hsent'
  rw [TcpState.serialize_of_fits hfits] at hdata hdata'
  rw [← hdata] at hdata'
  exact List.append_cancel_left (Option.some.inj hdata')

end TcpMigPeer

end

namespace AppStateRun

section

/-- The state of a new connection to the remote. -/
def bareState (remote : SocketAddrV4) : ControlBlockState where
  local_ := ⟨⟨10, 0, 1, 8⟩, 10000⟩
  remote := remote
  receiveBufferSize := 1000
  windowScale := 0
  outOfOrderFin := none
  outOfOrderQueue := []
  receiver := ⟨⟨1⟩, ⟨1⟩, []⟩
  sender := ⟨⟨1⟩, ⟨1⟩, ⟨1⟩, 1000, ⟨1⟩, ⟨1⟩, 536, 0, [], []⟩

theorem bareState_fits (remote : SocketAddrV4) : (bareState remote).Fits := by
  simp [bareState, ControlBlockState.Fits, ReceiverState.Fits, SenderState.Fits, DequeFits]

theorem bareState_short (remote : SocketAddrV4) (byte : UInt8) : Pieces.count maxFragmentSize
    (TcpState.mk (bareState remote) (.registered ⟨[byte]⟩)).serializedSize < 2 ^ 16 := by
  have hsize : (TcpState.mk (bareState remote) (.registered ⟨[byte]⟩)).serializedSize = 76 := rfl
  rw [hsize]
  decide

/-- The application writes other bytes into the state than into any other one. -/
def marks (state state' : ApplicationState) : ApplicationState := if state' = state then ⟨[1]⟩ else ⟨[2]⟩

/-- A peer with the entry for the remote, and with a migration that waits for the state of its connection. -/
def readyPeer (p : TcpMigPeer) (remote : SocketAddrV4) (entry : Option MigratedApplicationState) : TcpMigPeer :=
  { p with
    applicationState := match entry with
      | some state => (∅ : HashMap SocketAddrV4 MigratedApplicationState).insert remote state
      | none => ∅
    activeMigrations := p.activeMigrations.insert remote
      { p.newActive 10000 ⟨⟨10, 0, 1, 8⟩, 10000⟩ remote (some 3) with lastSentStage := .prepareMigration } }

theorem readyPeer_get (p : TcpMigPeer) (remote : SocketAddrV4) (entry : Option MigratedApplicationState) :
    (readyPeer p remote entry).applicationState.get remote = entry := by
  cases entry <;> simp [readyPeer]

variable {h h' : AppStateRun} {e : AppStateEvent}

/-- The states go with their connections exactly as long as the peer has them. -/
theorem keeps_iff (h : AppStateRun) : h.Keeps ↔ ∀ remote state, h.held remote = some (.registered state) →
    h.peer.applicationState.get remote = some (.registered state) := by
  constructor
  · intro hk remote state hheld
    have hget := readyPeer_get h.peer remote
      ((h.peer.applicationState.get remote).map (MigratedApplicationState.written (marks state)))
    have hexports := hk _ (marks state) (bareState remote) state hheld hget
    have hactive := HashMap.get_insert h.peer.activeMigrations remote remote
      { h.peer.newActive 10000 ⟨⟨10, 0, 1, 8⟩, 10000⟩ remote (some 3) with lastSentStage := .prepareMigration }
    rw [if_pos rfl] at hactive
    have hmarked : marks state state = ⟨[1]⟩ := if_pos rfl
    rw [hmarked] at hexports
    have hsent := hexports.sent hactive rfl (bareState_fits remote) (bareState_short remote 1)
    change (TcpMigPeer.exported ((readyPeer _ remote _).applicationState.get remote)).encode = _ at hsent
    rw [hget] at hsent
    cases hentry : h.peer.applicationState.get remote with
    | none => rw [hentry] at hsent; cases hsent
    | some entry =>
      rw [hentry] at hsent
      cases entry with
      | none => cases hsent
      | migratedIn buf => cases hsent
      | registered other =>
        by_cases hother : other = state
        · rw [hother]
        · have hunmarked : marks state other = ⟨[2]⟩ := if_neg hother
          simp only [Option.map_some, MigratedApplicationState.written, TcpMigPeer.exported, hunmarked] at hsent
          cases hsent
  · intro hk p write cb state hheld hp
    rw [hk cb.remote state hheld] at hp
    exact TcpMigPeer.exports_registered hp

theorem Synced.keeps (hs : h.Synced) : h.Keeps :=
  (keeps_iff h).mpr fun remote _ hheld => (hs.same remote).trans hheld

theorem Synced.frame {p : TcpMigPeer} (hs : h.Synced) (hp : p.applicationState = h.peer.applicationState) :
    Synced { h with peer := p } := by
  refine ⟨fun remote => ?_, hs.isState⟩
  dsimp only
  rw [hp]
  exact hs.same remote

/-- An entry set together with what is held for it. -/
theorem Synced.entry {p : TcpMigPeer} {remote : SocketAddrV4} {entry : Option MigratedApplicationState} (hs : h.Synced)
    (hsome : entry ≠ some .none) (hp : ∀ remote', p.applicationState.get remote' =
      if remote' = remote then entry else h.peer.applicationState.get remote') : Synced ⟨p, h.hold remote entry⟩ := by
  refine ⟨fun remote' => ?_, fun remote' => ?_⟩
  · dsimp only
    rw [hp, hold]
    by_cases hremote : remote' = remote
    · rw [hremote, Function.update_self, if_pos rfl]
    · rw [Function.update_of_ne hremote, if_neg hremote]
      exact hs.same remote'
  · dsimp only [hold]
    by_cases hremote : remote' = remote
    · rw [hremote, Function.update_self]
      exact hsome
    · rw [Function.update_of_ne hremote]
      exact hs.isState remote'

theorem Synced.imports {p : TcpMigPeer} {arrived : Option TcpState} (hs : h.Synced)
    (hp : p.applicationState = h.peer.importedBy arrived) : Synced ⟨p, h.imported arrived⟩ := by
  cases arrived with
  | none => exact hs.frame hp
  | some state =>
    obtain ⟨cb, appState⟩ := state
    cases appState with
    | none => exact hs.frame hp
    | registered => exact hs.frame hp
    | migratedIn buf =>
      refine hs.entry (fun hentry => by cases hentry) fun remote' => ?_
      rw [hp]
      exact HashMap.get_insert _ _ _ _

theorem Synced.removed {p : TcpMigPeer} {remote : SocketAddrV4} (hs : h.Synced)
    (hp : p.applicationState = h.peer.applicationState.remove remote) : Synced ⟨p, h.hold remote none⟩ :=
  hs.entry (fun hentry => by cases hentry) fun remote' => by rw [hp, HashMap.get_remove]

/-- A read that finds nothing registered keeps what is held, and registers what came with a connection. -/
theorem Synced.read (hs : h.Synced) (decode : Buffer → ApplicationState) {remote : SocketAddrV4}
    (hfree : ∀ state, h.peer.applicationState.get remote ≠ some (.registered state)) :
    Synced ⟨(h.peer.getMigratedApplicationState decode remote).2, h.readBy decode remote⟩ := by
  have hsame := hs.same remote
  unfold readBy TcpMigPeer.getMigratedApplicationState
  rw [← hsame]
  cases hentry : h.peer.applicationState.get remote with
  | none =>
    have hheld : h.held = h.hold remote none := by rw [hold, ← hentry, hsame, Function.update_eq_self]
    dsimp only
    rw [hheld]
    exact hs.removed rfl
  | some entry =>
    cases entry with
    | none => exact absurd (hsame.symm.trans hentry) (hs.isState remote)
    | registered state => exact absurd hentry (hfree state)
    | migratedIn buf =>
      refine hs.entry (fun hentry => by cases hentry) fun remote' => ?_
      dsimp only [TcpMigPeer.registerApplicationState]
      rw [HashMap.get_insert, HashMap.get_remove]
      split <;> rfl

/-- A registered state that is read is gone. -/
theorem Synced.lost (hs : h.Synced) (decode : Buffer → ApplicationState) {remote : SocketAddrV4} {state : ApplicationState}
    (hentry : h.peer.applicationState.get remote = some (.registered state)) :
    ¬Keeps ⟨(h.peer.getMigratedApplicationState decode remote).2, h.readBy decode remote⟩ := by
  intro hkeeps
  have hheld : h.held remote = some (.registered state) := (hs.same remote).symm.trans hentry
  have hread : h.readBy decode remote = h.held := by rw [readBy, hheld]
  rw [hread] at hkeeps
  have hgone := (keeps_iff _).mp hkeeps remote state hheld
  unfold TcpMigPeer.getMigratedApplicationState at hgone
  rw [hentry] at hgone
  dsimp only at hgone
  rw [HashMap.get_remove, if_pos rfl] at hgone
  cases hgone

/-- Every operation but a read keeps what is held and what the peer has the same. -/
theorem synced_step (hs : h.Synced) (hstep : step h e = some h')
    (hread : ∀ decode remote, e ≠ .getMigratedApplicationState decode remote) : h'.Synced := by
  cases e with
  | registerApplicationState remote state =>
    cases hstep
    exact hs.entry (fun hentry => by cases hentry) fun remote' => HashMap.get_insert _ _ _ _
  | getMigratedApplicationState decode remote => exact absurd rfl (hread decode remote)
  | receive ipv4Hdr buf =>
    obtain ⟨⟨result, p⟩, hreceive, hstep⟩ := Option.bind_eq_some_iff.mp hstep
    cases hstep
    exact hs.imports (TcpMigPeer.receive_applicationState hreceive)
  | sendTcpState state =>
    obtain ⟨p, hsend, hstep⟩ := Option.bind_eq_some_iff.mp hstep
    cases hstep
    exact hs.removed (TcpMigPeer.sendTcpState_applicationState hsend)
  | initiateMigration conn qd =>
    obtain ⟨p, hinitiate, hstep⟩ := Option.bind_eq_some_iff.mp hstep
    cases hstep
    exact hs.frame (TcpMigPeer.initiateMigration_applicationState hinitiate)
  | tryBufferPacket remote tcpHdr data =>
    cases hstep
    exact hs.frame (h.peer.tryBufferPacket_applicationState remote tcpHdr data)
  | closeActiveMigration remote =>
    cases hstep
    exact hs.frame rfl
  | setPort port =>
    cases hstep
    exact hs.frame rfl

theorem keeps_step (hs : h.Synced) (hstep : step h e = some h') :
    (h'.Keeps ↔ h.ReadsImported e) ∧ (h.ReadsImported e → h'.Synced) := by
  by_cases hread : ∃ decode remote, e = .getMigratedApplicationState decode remote
  · obtain ⟨decode, remote, rfl⟩ := hread
    cases hstep
    by_cases hfree : ∀ state, h.peer.applicationState.get remote ≠ some (.registered state)
    · have hsynced := hs.read decode hfree
      exact ⟨⟨fun _ => hfree, fun _ => hsynced.keeps⟩, fun _ => hsynced⟩
    · obtain ⟨state, hentry⟩ := not_forall_not.mp hfree
      exact ⟨⟨fun hkeeps => absurd hkeeps (hs.lost decode hentry), fun hfree' => absurd hfree' hfree⟩,
        fun hfree' => absurd hfree' hfree⟩
  · have hsynced := synced_step hs hstep fun decode remote heq => hread ⟨decode, remote, heq⟩
    have hok : h.ReadsImported e := by
      cases e <;> first | trivial | exact absurd ⟨_, _, rfl⟩ hread
    exact ⟨⟨fun _ => hok, fun _ => hsynced.keeps⟩, fun _ => hsynced⟩

/-- In every state of a run the next `send_tcp_state` for a remote exports the application state registered for it, or
registered by the first read of what came with the connection, exactly if nothing registered is read. -/
theorem appStates_kept_iff {localLinkAddr : MacAddress} {localIpv4Addr : Ipv4Addr} {es : List AppStateEvent}
    (hr : run step (start localLinkAddr localIpv4Addr) es = some h) :
    Always step Keeps (start localLinkAddr localIpv4Addr) es ↔
      Admits step ReadsImported (start localLinkAddr localIpv4Addr) es := by
  have hsynced : (start localLinkAddr localIpv4Addr).Synced :=
    ⟨fun remote => HashMap.get_empty remote, fun _ hentry => by cases hentry⟩
  have hstep : ∀ h e h', Synced h → Keeps h → True → step h e = some h' →
      (Keeps h' ↔ h.ReadsImported e) ∧ (h.ReadsImported e → Synced h') :=
    fun h e h' hs _ _ hstep => keeps_step hs hstep
  exact always_iff_admits hstep hsynced hsynced.keeps (admits_of_forall (fun _ _ => trivial) _ es) hr

end

/-- A state is registered for one client, another client's is asked for, and the first one's connection leaves. -/
def sampleAppStates : List AppStateEvent :=
  [.registerApplicationState ⟨⟨10, 0, 1, 7⟩, 201⟩ ⟨[7]⟩, .getMigratedApplicationState (⟨·⟩) ⟨⟨10, 0, 1, 7⟩, 202⟩,
    .initiateMigration ⟨⟨⟨10, 0, 1, 8⟩, 10000⟩, ⟨⟨10, 0, 1, 7⟩, 201⟩⟩ 3,
    .sendTcpState ⟨bareState ⟨⟨10, 0, 1, 7⟩, 201⟩, .none⟩]

theorem appStates_kept_iff_sample : Always step Keeps (start frontendMac frontendIp) sampleAppStates := by
  have hgoes : (run step (start frontendMac frontendIp) sampleAppStates).isSome = true := rfl
  obtain ⟨h, hr⟩ := Option.isSome_iff_exists.mp hgoes
  refine (appStates_kept_iff hr).mpr
    ⟨trivial, fun h hs => ⟨?_, fun h _ => ⟨trivial, fun h _ => ⟨trivial, fun _ _ => trivial⟩⟩⟩⟩
  cases hs
  intro state hentry
  cases hentry

/-- A registered state is read, and the connection leaves without it. -/
theorem appStates_kept_iff_read : ∃ h, run step (start frontendMac frontendIp)
    [.registerApplicationState ⟨⟨10, 0, 1, 7⟩, 201⟩ ⟨[7]⟩, .getMigratedApplicationState (⟨·⟩) ⟨⟨10, 0, 1, 7⟩, 201⟩,
      .initiateMigration ⟨⟨⟨10, 0, 1, 8⟩, 10000⟩, ⟨⟨10, 0, 1, 7⟩, 201⟩⟩ 3] = some h ∧
    h.held ⟨⟨10, 0, 1, 7⟩, 201⟩ = some (.registered ⟨[7]⟩) ∧
    ¬h.peer.Exports (bareState ⟨⟨10, 0, 1, 7⟩, 201⟩) ⟨[7]⟩ ∧ ¬h.Keeps := by
  obtain ⟨h, active, hr, hheld, hactive, hstage, hgone⟩ : ∃ h active, run step (start frontendMac frontendIp)
      [.registerApplicationState ⟨⟨10, 0, 1, 7⟩, 201⟩ ⟨[7]⟩, .getMigratedApplicationState (⟨·⟩) ⟨⟨10, 0, 1, 7⟩, 201⟩,
        .initiateMigration ⟨⟨⟨10, 0, 1, 8⟩, 10000⟩, ⟨⟨10, 0, 1, 7⟩, 201⟩⟩ 3] = some h ∧
      h.held ⟨⟨10, 0, 1, 7⟩, 201⟩ = some (.registered ⟨[7]⟩) ∧
      h.peer.activeMigrations.get ⟨⟨10, 0, 1, 7⟩, 201⟩ = some active ∧ active.lastSentStage = .prepareMigration ∧
      h.peer.applicationState.get ⟨⟨10, 0, 1, 7⟩, 201⟩ = none := ⟨_, _, rfl, rfl, rfl, rfl, rfl⟩
  refine ⟨h, hr, hheld, fun hexports => ?_, fun hkeeps => ?_⟩
  · have hsent := hexports.sent hactive hstage (bareState_fits _) (bareState_short _ 7)
    change (TcpMigPeer.exported (h.peer.applicationState.get ⟨⟨10, 0, 1, 7⟩, 201⟩)).encode = _ at hsent
    rw [hgone] at hsent
    cases hsent
  · have hentry := (keeps_iff h).mp hkeeps ⟨⟨10, 0, 1, 7⟩, 201⟩ ⟨[7]⟩ hheld
    rw [hgone] at hentry
    cases hentry

end AppStateRun

end Capybara
