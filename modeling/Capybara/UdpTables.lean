import Capybara.UdpNetwork

namespace Capybara

open Runs

namespace UdpHost

/-- The tables of a host are those of a peer whose queues are not shared; what is in the queues is left out. -/
structure Follows (h : UdpHost) (u : UdpPeer) : Prop where
  ephemeralPorts : h.ephemeralPorts = u.ephemeralPorts
  sockets : h.sockets = u.sockets
  bound : ∀ addr, (h.bound.get addr).isSome = (u.bound.get addr).isSome

section

variable {h h' : UdpHost} {u : UdpPeer}

theorem follows_new (setup : UdpSetup) : (new setup).Follows (.new setup.ephemeralPorts) := ⟨rfl, rfl, fun _ => rfl⟩

theorem Follows.congr (hf : h.Follows u) (hports : h'.ephemeralPorts = h.ephemeralPorts) (hsockets : h'.sockets = h.sockets)
    (hbound : h'.bound = h.bound) : h'.Follows u :=
  ⟨hports.trans hf.ephemeralPorts, hsockets.trans hf.sockets, fun addr => by rw [hbound, hf.bound]⟩

theorem Follows.doSocket (hf : h.Follows u) (qd : QDesc) :
    (h.doSocket qd).1 = (u.doSocket qd).1 ∧ (h.doSocket qd).2.Follows (u.doSocket qd).2 := by
  unfold UdpHost.doSocket UdpPeer.doSocket
  rw [hf.sockets]
  cases u.sockets.get qd with
  | none => exact ⟨rfl, hf.ephemeralPorts, rfl, hf.bound⟩
  | some socket => exact ⟨rfl, hf⟩

theorem Follows.rollbackPort (hf : h.Follows u) (addr : SocketAddrV4) : (h.rollbackPort addr).Follows (u.rollbackPort addr) := by
  unfold UdpHost.rollbackPort UdpPeer.rollbackPort
  split
  next => exact ⟨congrArg (EphemeralPorts.free · addr.port) hf.ephemeralPorts, hf.sockets, hf.bound⟩
  next => exact hf

theorem Follows.registerAddr (hf : h.Follows u) (qd : QDesc) (addr : SocketAddrV4) :
    (h.registerAddr qd addr).1 = (u.registerAddr qd addr).1 ∧
      (h.registerAddr qd addr).2.Follows (u.registerAddr qd addr).2 := by
  have hregistered : ({ h with
      sockets := h.sockets.insert qd (some addr)
      bound := h.bound.insert addr h.queues.length
      queues := h.queues ++ [.sized recvQueueMaxSize] } : UdpHost).Follows { u with
      sockets := u.sockets.insert qd (some addr)
      bound := u.bound.insert addr (.new recvQueueMaxSize) } := by
    refine ⟨hf.ephemeralPorts, congrArg (HashMap.insert · qd (some addr)) hf.sockets, fun addr' => ?_⟩
    dsimp only
    rw [HashMap.get_insert, HashMap.get_insert]
    split
    next => rfl
    next => exact hf.bound addr'
  unfold UdpHost.registerAddr UdpPeer.registerAddr
  rw [hf.sockets] at hregistered ⊢
  cases u.sockets.get qd with
  | none => exact ⟨rfl, hf⟩
  | some socket =>
    cases socket with
    | some _ => exact ⟨rfl, hf⟩
    | none =>
      dsimp only
      rw [hf.bound]
      split
      next => exact ⟨rfl, hregistered⟩
      next => exact ⟨rfl, hregistered⟩

theorem Follows.doBind (hf : h.Follows u) (qd : QDesc) (addr : SocketAddrV4) :
    (h.doBind qd addr).1 = (u.doBind qd addr).1 ∧ (h.doBind qd addr).2.Follows (u.doBind qd addr).2 := by
  have hport : (UdpPeer.new h.ephemeralPorts).bindPort addr = u.bindPort addr := by
    rw [hf.ephemeralPorts]
    rfl
  unfold UdpHost.doBind UdpPeer.doBind
  rw [hf.bound, hport]
  split
  next => exact ⟨rfl, hf⟩
  next =>
    cases u.bindPort addr with
    | error e => exact ⟨rfl, hf⟩
    | ok taken =>
      obtain ⟨addr', ports⟩ := taken
      have hports : ({ h with ephemeralPorts := ports } : UdpHost).Follows { u with ephemeralPorts := ports } :=
        ⟨rfl, hf.sockets, hf.bound⟩
      obtain ⟨hsame, hregistered⟩ := hports.registerAddr qd addr'
      dsimp only
      generalize ({ h with ephemeralPorts := ports } : UdpHost).registerAddr qd addr' = r at hsame hregistered
      generalize ({ u with ephemeralPorts := ports } : UdpPeer).registerAddr qd addr' = r' at hsame hregistered
      obtain ⟨result, h'⟩ := r
      obtain ⟨result', u'⟩ := r'
      obtain rfl : result = result' := hsame
      cases result with
      | ok _ => exact ⟨rfl, hregistered⟩
      | error e => exact ⟨rfl, hregistered.rollbackPort addr'⟩

theorem Follows.doClose (hf : h.Follows u) (qd : QDesc) :
    (h.doClose qd).1 = (u.doClose qd).1 ∧ (h.doClose qd).2.Follows (u.doClose qd).2 := by
  have hremoved : ({ h with sockets := h.sockets.remove qd } : UdpHost).Follows { u with sockets := u.sockets.remove qd } :=
    ⟨hf.ephemeralPorts, congrArg (HashMap.remove · qd) hf.sockets, hf.bound⟩
  unfold UdpHost.doClose UdpPeer.doClose
  rw [hf.sockets] at hremoved ⊢
  cases u.sockets.get qd with
  | none => exact ⟨rfl, hf⟩
  | some socket =>
    cases socket with
    | none => exact ⟨rfl, hremoved⟩
    | some local_ =>
      have hsome := hf.bound local_
      dsimp only
      cases hbound : u.bound.get local_ with
      | none =>
        rw [hbound] at hsome
        rw [Option.isSome_eq_false_iff.mp hsome |> Option.isNone_iff_eq_none.mp]
        exact ⟨rfl, hremoved⟩
      | some queue =>
        rw [hbound] at hsome
        obtain ⟨id, hid⟩ := Option.isSome_iff_exists.mp hsome
        rw [hid]
        refine ⟨rfl, hremoved.ephemeralPorts, hremoved.sockets, fun addr => ?_⟩
        dsimp only
        rw [HashMap.get_remove, HashMap.get_remove]
        split
        next => rfl
        next => exact hf.bound addr

end

end UdpHost

/-- What an event asks of the tables. -/
def UdpNode.Event.tableCall : UdpNode.Event → Option UdpEvent
  | .doSocket qd => some (.doSocket qd)
  | .doBind qd addr => some (.call (.doBind qd addr))
  | .doClose qd => some (.call (.doClose qd))
  | _ => none

section

variable {ip : Ipv4Addr} {P : Buffer → Prop} {n n' : UdpNode} {u : UdpPeer}

theorem UdpNode.Sound.follows_step (h : n.Sound ip P) (hf : n.host.Follows u) {e : UdpNode.Event}
    (hs : n.step e = some n') :
    ∃ u', run UdpPeer.step u e.tableCall.toList = some u' ∧ n'.host.Follows u' := by
  obtain ⟨owners, hreceives, hpops⟩ := h.receives
  cases e with
  | doSocket qd =>
    obtain rfl := Option.some.inj hs
    exact ⟨_, rfl, (hf.doSocket qd).2⟩
  | doBind qd addr =>
    obtain rfl := Option.some.inj hs
    exact ⟨_, rfl, (hf.doBind qd addr).2⟩
  | doClose qd =>
    obtain rfl := Option.some.inj hs
    exact ⟨_, rfl, (hf.doClose qd).2⟩
  | doPushto qd data remote linkAddr =>
    obtain ⟨⟨r, host⟩, hpush, rfl⟩ := Option.map_eq_some_iff.mp hs
    obtain ⟨-, hsame⟩ := (h.sends.doPushto qd data remote linkAddr).2 r host hpush
    exact ⟨u, rfl, hf.congr hsame.ephemeralPorts hsame.sockets hsame.bound⟩
  | pollBackground answers =>
    obtain ⟨host, hpoll, rfl⟩ := Option.map_eq_some_iff.mp hs
    obtain ⟨-, hsame⟩ := (h.sends.pollBackground answers).2 host hpoll
    exact ⟨u, rfl, hf.congr hsame.ephemeralPorts hsame.sockets hsame.bound⟩
  | doPop qd =>
    obtain ⟨local_, -, hs⟩ := Option.bind_eq_some_iff.mp hs
    obtain ⟨f, -, hs⟩ := Option.bind_eq_some_iff.mp hs
    obtain rfl := Option.some.inj hs
    exact ⟨u, rfl, hf⟩
  | poll id =>
    refine ⟨u, rfl, ?_⟩
    change n.poll id = some n' at hs
    unfold UdpNode.poll at hs
    split at hs
    next local_ f hget =>
      rcases hreceives.pollPop (hpops local_ f (List.mem_of_getElem? hget)) with
        ⟨host, hpoll, -, -, hports, hsockets, hbound⟩ | ⟨slot, host, hpoll, -, -, -, hports, hsockets, hbound⟩
      · rw [hpoll] at hs
        obtain rfl := Option.some.inj hs
        exact hf.congr hports hsockets hbound
      · rw [hpoll] at hs
        obtain rfl := Option.some.inj hs
        exact hf.congr hports hsockets hbound
    next =>
      obtain rfl := Option.some.inj hs
      exact hf
  | arrive bytes =>
    obtain ⟨host, harrive, rfl⟩ := Option.map_eq_some_iff.mp hs
    obtain ⟨host', harrive', -, -, hports, hsockets, hbound⟩ :=
      (hreceives.mono (fun _ _ => trivial) : n.host.Receives (fun _ => True) owners).arrive (trivial : (fun _ => True) bytes)
    obtain rfl := Option.some.inj (harrive.symm.trans harrive')
    exact ⟨u, rfl, hf.congr hports hsockets hbound⟩

end

namespace UdpNetwork

variable {H : Type} [DecidableEq H] (setup : H → UdpSetup)

/-- What an event of the network asks of the tables of a host. -/
def tableCall (h : H) : Network.Event H UdpAct → Option UdpEvent
  | .act g e => if g = h then e.1.tableCall else none
  | .deliver _ _ _ => none

theorem step_follows {n n' : H → UdpNode} {e : Network.Event H UdpAct} {h : H} {u : UdpPeer}
    (hinv : Network.Inv (Claims setup) (HostInv setup) n) (hf : (n h).host.Follows u)
    (hs : (udpNetwork H).step n e = some n') :
    ∃ u', run UdpPeer.step u (tableCall h e).toList = some u' ∧ (n' h).host.Follows u' := by
  cases e with
  | act g e =>
    obtain ⟨s', hact, rfl⟩ := Option.map_eq_some_iff.mp hs
    rw [tableCall]
    by_cases heq : g = h
    · subst heq
      rw [Function.update_self, if_pos rfl]
      exact (hinv g).follows_step hf hact
    · rw [Function.update_of_ne (Ne.symm heq), if_neg heq]
      exact ⟨u, rfl, hf⟩
  | deliver sender receiver k =>
    refine ⟨u, rfl, ?_⟩
    simp only [Network.step] at hs
    split at hs
    next => exact Option.some.inj hs ▸ hf
    next bytes _ =>
      obtain ⟨s', hhear, rfl⟩ := Option.map_eq_some_iff.mp hs
      by_cases heq : h = receiver
      · subst heq
        rw [Function.update_self]
        change (n h).step (.arrive bytes) = some s' at hhear
        obtain ⟨u', hu, hf'⟩ := (hinv h).follows_step hf hhear
        obtain rfl := Option.some.inj hu
        exact hf'
      · rw [Function.update_of_ne heq]
        exact hf

/-- The sockets, the bound addresses and the port pool of a host are those that the calls at this host give a peer by
itself, whatever comes in over the network. -/
theorem run_follows {n : H → UdpNode} {es : List (Network.Event H UdpAct)}
    (hr : run (udpNetwork H).step (start setup) es = some n) (h : H) :
    ∃ u, run UdpPeer.step (.new (setup h).ephemeralPorts) (es.filterMap (tableCall h)) = some u ∧
      (n h).host.Follows u := by
  have hall : ∀ (es : List (Network.Event H UdpAct)) (m : H → UdpNode) (u : UdpPeer),
      Network.Inv (Claims setup) (HostInv setup) m → (m h).host.Follows u → run (udpNetwork H).step m es = some n →
        ∃ u', run UdpPeer.step u (es.filterMap (tableCall h)) = some u' ∧ (n h).host.Follows u' := by
    intro es
    induction es with
    | nil =>
      intro m u _ hf hr
      obtain rfl := Option.some.inj hr
      exact ⟨u, rfl, hf⟩
    | cons e es ih =>
      intro m u hinv hf hr
      obtain ⟨m', hs, hr⟩ := Option.bind_eq_some_iff.mp hr
      obtain ⟨u', hu, hf'⟩ := step_follows setup hinv hf hs
      obtain ⟨u'', hu', hlast⟩ := ih m' u' ((honest setup).step hinv hs) hf' hr
      refine ⟨u'', ?_, hlast⟩
      rw [show (e :: es).filterMap (tableCall h) = (tableCall h e).toList ++ es.filterMap (tableCall h) by
        cases hcall : tableCall h e <;> simp [hcall], run_append, hu]
      exact hu'
  exact hall es _ _ (inv_start setup) (UdpHost.follows_new (setup h)) hr

theorem run_follows_sample : ∃ n u, run (udpNetwork Bool).step (start sampleSetup) samplePops = some n ∧
    run UdpPeer.step (.new ⟨[]⟩) [.doSocket 1, .call (.doBind 1 ⟨.unspecified, 53⟩)] = some u ∧
    (n true).host.Follows u := by
  have hgoes : (run (udpNetwork Bool).step (start sampleSetup) samplePops).isSome = true := rfl
  obtain ⟨n, hr⟩ := Option.isSome_iff_exists.mp hgoes
  obtain ⟨u, hu, hf⟩ := run_follows sampleSetup hr true
  exact ⟨n, u, hr, hu, hf⟩

end UdpNetwork

end Capybara
