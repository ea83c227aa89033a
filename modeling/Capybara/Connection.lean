import Capybara.AckEffect
import Capybara.Migration

namespace Capybara

open ControlBlock

/-- What happens to a connection: at the socket, or a move to another server. -/
inductive ConnectionEvent
  | socket (event : SocketEvent) (env : Env)
  | migrate (appState : MigratedApplicationState) (local_ : SocketAddrV4) (ackDelayTimeout : Duration)

namespace Connection

def step (r : SocketRun) : ConnectionEvent → Option SocketRun
  | .socket event env => r.step (event, env)
  | .migrate appState local_ ackDelayTimeout => r.withSocket (r.socket.migrate appState local_ ackDelayTimeout)

/-- The text of a segment fits an IP packet. -/
def FitsPacket (r : SocketRun) : ConnectionEvent → Prop
  | .socket event env => r.FitsPacket (event, env)
  | .migrate _ _ _ => True

instance (r : SocketRun) : (e : ConnectionEvent) → Decidable (FitsPacket r e)
  | .socket event env => inferInstanceAs (Decidable (r.FitsPacket (event, env)))
  | .migrate _ _ _ => inferInstanceAs (Decidable True)

/-- What every connection keeps, also across migrations. -/
structure Steady (r : SocketRun) : Prop where
  coherent : Coherent r.socket
  buffer : r.socket.cb.receiveBufferSize.toNat < 2 ^ 31

section

variable {r r' : SocketRun}

/-- A migration leaves the connection at the other server with a block of its own and a sender that starts anew. -/
theorem migrate_arrives {appState : MigratedApplicationState} {local_ : SocketAddrV4} {ackDelayTimeout : Duration}
    (h : step r (.migrate appState local_ ackDelayTimeout) = some r') :
    r' = { r with socket := ⟨r.socket.cb.arrived local_ ackDelayTimeout, .top⟩ } := by
  obtain ⟨s, hmigrate, rfl⟩ := Option.map_eq_some_iff.mp h
  rw [migrate_of_fits (fits_of_migrate hmigrate)] at hmigrate
  cases Option.some.inj hmigrate
  rfl

theorem Steady.step {e : ConnectionEvent} (h : Steady r) (hd : FitsPacket r e) (hs : step r e = some r') :
    Steady r' := by
  cases e with
  | socket event env =>
    have hstep := step_cases h.coherent.oneByte h.buffer hd hs
    exact ⟨coherent_step h.coherent hstep, by rw [hstep.sameBuffer.receiveBufferSize]; exact h.buffer⟩
  | migrate appState local_ ackDelayTimeout =>
    rw [migrate_arrives hs]
    exact ⟨h.coherent.arrived local_ ackDelayTimeout, h.buffer⟩

end

end Connection

theorem Opened.steady {cb : ControlBlock} (h : Opened cb) : Connection.Steady (.start ⟨cb, .top⟩) :=
  ⟨h.inFlight.toCoherent, h.buffer⟩

end Capybara
