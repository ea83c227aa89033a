import Capybara.SwitchIngress

namespace Capybara

namespace Switch

variable {hash : Client → Index} {s : Registers} {p : Packet} {h : Ipv4} {m : Meta} {c : Client} {b : Owner}

/-- The registers name the owner of the client. -/
structure Holds (hash : Client → Index) (s : Registers) (c : Client) (b : Owner) : Prop where
  requestClientIp : s.requestClientIp (hash c) = c.ip
  requestClientPort : s.requestClientPort (hash c) = c.port
  replyClientIp : s.replyClientIp (hash c) = c.ip
  replyClientPort : s.replyClientPort (hash c) = c.port
  ownerMacHi32 : s.ownerMacHi32 (hash c) = hi32 b.mac
  ownerMacLo16 : s.ownerMacLo16 (hash c) = lo16 b.mac
  ownerIp : s.ownerIp (hash c) = b.ip
  ownerPort : s.ownerPort (hash c) = b.port

/-- The headers of a packet that is neither generated by the switch itself nor recirculated. -/
def Packet.enters (p : Packet) : Option Ipv4 := if p.pktgen ∨ p.ingressPort = pipe0Recirc then none else p.ipv4

/-- A SYN of the client to the front end. -/
def Packet.SynFrom (p : Packet) (c : Client) : Prop :=
  ∃ h dstPort, p.enters = some h ∧ h.srcIp = c.ip ∧ h.l4 = .tcp c.port dstPort 0b00000010 ∧ h.dstIp = feIp

/-- The flag byte of a PREPARE_MIGRATION_ACK with the LOAD flag. -/
def IsLoadAck (flag : BitVec 8) : Prop :=
  ∃ hdr : TcpMigHeader, hdr.stage = .prepareMigrationAck ∧ hdr.flagLoad = true ∧ hdr.flagNextFragment = false ∧
    flag = hdr.serializeFlagsAndStage.toBitVec

/-- Such an acknowledgement for the client, from the backend. -/
def Packet.AckFor (p : Packet) (c : Client) (b : Owner) : Prop :=
  ∃ h dstPort mig, p.enters = some h ∧ h.l4 = .udp b.port dstPort (some mig) ∧ mig.clientIp = c.ip ∧
    mig.clientPort = c.port ∧ p.srcMac = b.mac ∧ h.srcIp = b.ip ∧ IsLoadAck mig.flag

def Packet.NonSynFrom (p : Packet) (c : Client) : Prop :=
  ∃ h dstPort flags, p.enters = some h ∧ h.srcIp = c.ip ∧ h.l4 = .tcp c.port dstPort flags ∧ flags ≠ 0b00000010

/-- A TCP packet to the client, other than a SYN to the front end. -/
def Packet.ReplyTo (p : Packet) (c : Client) : Prop :=
  ∃ h srcPort flags, p.enters = some h ∧ h.dstIp = c.ip ∧ h.l4 = .tcp srcPort c.port flags ∧
    ¬(flags = 0b00000010 ∧ h.dstIp = feIp)

def Packet.destination (p : Packet) : Option Owner :=
  match p.ipv4 with
  | some ⟨_, dstIp, .tcp _ dstPort _⟩ => some ⟨p.dstMac, dstIp, dstPort⟩
  | _ => none

def Packet.source (p : Packet) : Option Owner :=
  match p.ipv4 with
  | some ⟨srcIp, _, .tcp srcPort _ _⟩ => some ⟨p.srcMac, srcIp, srcPort⟩
  | _ => none

/-- The registers after a sequence of packets. -/
def registers (hash : Client → Index) (s : Registers) (packets : List Packet) : Registers :=
  packets.foldl (fun s p => (ingress hash s p).1) s

theorem serializeFlagsAndStage_eq_iff (hdr : TcpMigHeader) : hdr.serializeFlagsAndStage = 0b00110001 ↔
    hdr.stage = .prepareMigrationAck ∧ hdr.flagLoad = true ∧ hdr.flagNextFragment = false := by
  unfold TcpMigHeader.serializeFlagsAndStage
  generalize hdr.flagLoad = load
  generalize hdr.flagNextFragment = next
  generalize hdr.stage = stage
  cases load <;> cases next <;> cases stage <;> decide

theorem isLoadAck_iff {flag : BitVec 8} : IsLoadAck flag ↔ flag = 0b00110001 := by
  constructor
  · rintro ⟨hdr, hstage, hload, hnext, rfl⟩
    rw [(serializeFlagsAndStage_eq_iff hdr).mpr ⟨hstage, hload, hnext⟩]
    rfl
  · rintro rfl
    let addr : SocketAddrV4 := ⟨⟨0, 0, 0, 0⟩, 0⟩
    exact ⟨⟨addr, addr, 28, 0, true, false, .prepareMigrationAck, 0, 0⟩, rfl, rfl, rfl, by decide⟩

theorem identifier_register {α : Type} [DecidableEq α] (reg : Index → α) (index : Index) (client field : α)
    (hm : m.initialDistribution = false) : (identifier reg index m client field).1 = reg := by
  unfold identifier
  rw [if_neg (by simp [hm])]
  split <;> rfl

theorem migrationRequest_register {α : Type} (reg : Index → α) (index : Index) (result00 result01 : Bool) (value out : α)
    (hm : m.initialDistribution = false) (hf : m.flag ≠ 0b00110001) :
    (migrationRequest reg index m result00 result01 value out).1 = reg := by
  unfold migrationRequest
  rw [if_neg (by simp [hm] : ¬m.initialDistribution = true), if_neg hf]
  split
  next => split <;> rfl
  next => rfl

/-- Only SYNs to the front end and loading acknowledgements write the directory. -/
theorem direct_register (hm : m.initialDistribution = false) (hf : m.flag ≠ 0b00110001) : (direct s p h m).1 = s := by
  unfold direct
  simp only [identifier_register _ _ _ _ hm, migrationRequest_register _ _ _ _ _ _ hm hf]
  split <;> rfl

theorem identifier_off {α : Type} [DecidableEq α] (reg : Index → α) {index i : Index} (client field : α)
    (hi : i ≠ index) : (identifier reg index m client field).1 i = reg i := by
  unfold identifier
  split
  · exact Function.update_of_ne hi _ _
  · split <;> rfl

theorem migrationRequest_off {α : Type} (reg : Index → α) {index i : Index} (result00 result01 : Bool) (value out : α)
    (hi : i ≠ index) : (migrationRequest reg index m result00 result01 value out).1 i = reg i := by
  unfold migrationRequest
  split
  · split
    · split
      · exact Function.update_of_ne hi _ _
      · rfl
    · split
      · exact Function.update_of_ne hi _ _
      · split <;> rfl
  · rfl

theorem migrationRequest_unmatched {α : Type} (reg : Index → α) (index : Index) {result00 result01 : Bool}
    (value out : α) (hr : ¬(result00 = true ∧ result01 = true)) :
    migrationRequest reg index m result00 result01 value out = (reg, out) := if_neg hr

/-- The new registers, without the choice of what happens to the headers. -/
theorem direct_registers (s : Registers) (p : Packet) (h : Ipv4) (m : Meta) :
    let result00 := (identifier s.requestClientIp m.hash1 m m.client.ip h.srcIp).2
    let result01 := (identifier s.requestClientPort m.hash1 m m.client.port (h.l4.tcpSrcPort p.undefined)).2
    (direct s p h m).1 = { s with
      requestClientIp := (identifier s.requestClientIp m.hash1 m m.client.ip h.srcIp).1
      requestClientPort := (identifier s.requestClientPort m.hash1 m m.client.port (h.l4.tcpSrcPort p.undefined)).1
      replyClientIp := (identifier s.replyClientIp m.hash2 m m.client.ip h.dstIp).1
      replyClientPort := (identifier s.replyClientPort m.hash2 m m.client.port (h.l4.tcpDstPort p.undefined)).1
      ownerMacHi32 := (migrationRequest s.ownerMacHi32 m.hash1 m result00 result01 (hi32 m.owner.mac) (hi32 p.dstMac)).1
      ownerMacLo16 := (migrationRequest s.ownerMacLo16 m.hash1 m result00 result01 (lo16 m.owner.mac) (lo16 p.dstMac)).1
      ownerIp := (migrationRequest s.ownerIp m.hash1 m result00 result01 m.owner.ip h.dstIp).1
      ownerPort := (migrationRequest s.ownerPort m.hash1 m result00 result01 m.owner.port
        (h.l4.tcpDstPort p.undefined)).1 } := by
  simp only [direct]
  split <;> rfl

theorem Holds.direct_off (hs : Holds hash s c b) (h₁ : hash c ≠ m.hash1) (h₂ : hash c ≠ m.hash2) :
    Holds hash (direct s p h m).1 c b := by
  rw [direct_registers]
  constructor
  · exact (identifier_off _ _ _ h₁).trans hs.requestClientIp
  · exact (identifier_off _ _ _ h₁).trans hs.requestClientPort
  · exact (identifier_off _ _ _ h₂).trans hs.replyClientIp
  · exact (identifier_off _ _ _ h₂).trans hs.replyClientPort
  · exact (migrationRequest_off _ _ _ _ _ h₁).trans hs.ownerMacHi32
  · exact (migrationRequest_off _ _ _ _ _ h₁).trans hs.ownerMacLo16
  · exact (migrationRequest_off _ _ _ _ _ h₁).trans hs.ownerIp
  · exact (migrationRequest_off _ _ _ _ _ h₁).trans hs.ownerPort

theorem identifier_message {α : Type} [DecidableEq α] (reg : Index → α) (index : Index) (client field : α)
    (hm : m.initialDistribution = false) (hf : m.flag ≠ 0) :
    identifier reg index m client field = (reg, decide (reg index = client)) := by
  rw [identifier, if_neg (by simp [hm]), if_neg hf]

theorem identifier_tcp {α : Type} [DecidableEq α] (reg : Index → α) (index : Index) (client field : α)
    (hm : m.initialDistribution = false) (hf : m.flag = 0) :
    identifier reg index m client field = (reg, decide (reg index = field)) := by
  rw [identifier, if_neg (by simp [hm]), if_pos hf]

/-- A loading acknowledgement for somebody else changes nothing for the client. -/
theorem Holds.direct_other (hs : Holds hash s c b) (hm : m.initialDistribution = false) (hf : m.flag = 0b00110001)
    (h₁ : m.hash1 = hash m.client) (h₂ : m.hash2 = hash m.client) (hne : m.client ≠ c) :
    Holds hash (direct s p h m).1 c b := by
  by_cases hh : hash c = hash m.client
  · have hf0 : m.flag ≠ 0 := by
      rw [hf]
      decide
    have hno : ¬(decide (s.requestClientIp m.hash1 = m.client.ip) = true ∧
        decide (s.requestClientPort m.hash1 = m.client.port) = true) := by
      rw [h₁, ← hh, hs.requestClientIp, hs.requestClientPort]
      rintro ⟨hip, hport⟩
      exact hne (Client.ext (of_decide_eq_true hip).symm (of_decide_eq_true hport).symm)
    rw [direct_registers]
    simp only [identifier_message _ _ _ _ hm hf0, migrationRequest_unmatched _ _ _ _ hno]
    exact hs
  · exact hs.direct_off (h₁ ▸ hh) (h₂ ▸ hh)

theorem ingress_of_enters (he : p.enters = some h) : ingress hash s p =
    let x := classify hash s p h
    let y := direct x.1 x.2.1 x.2.2.1 x.2.2.2
    (y.1, { y.2.1 with ipv4 := some y.2.2 }, l2Forwarding y.2.1.dstMac) := by
  unfold Packet.enters at he
  split at he
  next => cases he
  next hno =>
    obtain ⟨hgen, hport⟩ := not_or.mp hno
    rw [ingress, if_neg hgen, if_neg hport, he]

theorem ingress_of_not_enters (he : p.enters = none) : (ingress hash s p).1 = s := by
  unfold Packet.enters at he
  unfold ingress
  split
  · rfl
  · split
    · rfl
    · rw [if_neg (by simp_all)] at he
      rw [he]

theorem zero_ne_loadAck : (0 : BitVec 8) ≠ 0b00110001 := by decide

theorem Holds.step (hs : Holds hash s c b) (hsyn : ¬p.SynFrom c) (hack : ∀ b', ¬p.AckFor c b')
    (hdistinct : ∀ c', p.SynFrom c' → hash c' = hash c → c' = c) : Holds hash (ingress hash s p).1 c b := by
  cases he : p.enters with
  | none => rwa [ingress_of_not_enters he]
  | some h =>
    rw [ingress_of_enters he]
    cases hl : h.l4 with
    | tcp srcPort dstPort flags =>
      by_cases hfe : flags = 0b00000010 ∧ h.dstIp = feIp
      · have hfrom : p.SynFrom ⟨h.srcIp, srcPort⟩ := ⟨h, dstPort, he, rfl, by rw [hl, hfe.1], hfe.2⟩
        have hne : hash c ≠ hash ⟨h.srcIp, srcPort⟩ := fun hh => hsyn (hdistinct _ hfrom hh.symm ▸ hfrom)
        simp only [classify, hl, if_pos hfe]
        apply Holds.direct_off _ hne hne
        exact ⟨hs.1, hs.2, hs.3, hs.4, hs.5, hs.6, hs.7, hs.8⟩
      · simp only [classify, hl, if_neg hfe]
        rwa [direct_register rfl zero_ne_loadAck]
    | udp srcPort dstPort mig =>
      cases mig with
      | none =>
        simp only [classify, hl]
        rwa [direct_register rfl zero_ne_loadAck]
      | some mig =>
        simp only [classify, hl]
        by_cases hf : mig.flag = 0b00110001
        · apply hs.direct_other rfl hf rfl rfl
          rintro rfl
          exact hack ⟨p.srcMac, h.srcIp, srcPort⟩ ⟨h, dstPort, mig, he, hl, rfl, rfl, rfl, rfl, isLoadAck_iff.mpr hf⟩
        · rwa [direct_register rfl hf]
    | other =>
      simp only [classify, hl]
      rwa [direct_register rfl zero_ne_loadAck]

theorem identifier_initial {α : Type} [DecidableEq α] (reg : Index → α) (index : Index) (client field : α)
    (hm : m.initialDistribution = true) :
    identifier reg index m client field = (Function.update reg index client, true) := if_pos hm

theorem migrationRequest_initial {α : Type} (reg : Index → α) (index : Index) (value out : α)
    (hm : m.initialDistribution = true) (hf : m.flag = 0) :
    migrationRequest reg index m true true value out = (Function.update reg index value, out) := by
  simp [migrationRequest, hm, hf]

theorem migrationRequest_ack {α : Type} (reg : Index → α) (index : Index) (value out : α)
    (hm : m.initialDistribution = false) (hf : m.flag = 0b00110001) :
    migrationRequest reg index m true true value out = (Function.update reg index value, out) := by
  simp [migrationRequest, hm, hf]

theorem migrationRequest_tcp {α : Type} (reg : Index → α) (index : Index) (value out : α)
    (hm : m.initialDistribution = false) (hf : m.flag = 0) :
    migrationRequest reg index m true true value out = (reg, reg index) := by
  simp [migrationRequest, hm, hf]

theorem setTcpDstPort_self (l4 : L4) (u : Undefined) : l4.setTcpDstPort (l4.tcpDstPort u) = l4 := by
  cases l4 <;> rfl

theorem direct_initial (hm : m.initialDistribution = true) (hf : m.flag = 0) (h₁ : m.hash1 = hash m.client)
    (h₂ : m.hash2 = hash m.client) : Holds hash (direct s p h m).1 m.client m.owner ∧ (direct s p h m).2 = (p, h) := by
  constructor
  · rw [direct_registers]
    simp only [identifier_initial _ _ _ _ hm, migrationRequest_initial _ _ _ _ hm hf, h₁, h₂]
    constructor <;> exact Function.update_self _ _ _
  · simp only [direct, identifier_initial _ _ _ _ hm, migrationRequest_initial _ _ _ _ hm hf, hi32_append_lo16,
      setTcpDstPort_self]
    rw [if_neg (by simp [hm])]

theorem direct_ack (hs : Holds hash s m.client b) (hm : m.initialDistribution = false) (hf : m.flag = 0b00110001)
    (h₁ : m.hash1 = hash m.client) : Holds hash (direct s p h m).1 m.client m.owner := by
  have hf0 : m.flag ≠ 0 := by
    rw [hf]
    exact zero_ne_loadAck.symm
  rw [direct_registers]
  simp only [identifier_message _ _ _ _ hm hf0, h₁, hs.requestClientIp, hs.requestClientPort, decide_true,
    migrationRequest_ack _ _ _ _ hm hf]
  constructor
  · exact hs.requestClientIp
  · exact hs.requestClientPort
  · exact hs.replyClientIp
  · exact hs.replyClientPort
  all_goals exact Function.update_self _ _ _

theorem direct_tcp_destination (hs : Holds hash s c b) (hm : m.initialDistribution = false) (hf : m.flag = 0)
    (h₁ : m.hash1 = hash c) (hip : h.srcIp = c.ip) {dstPort : BitVec 16} {flags : BitVec 8}
    (hl : h.l4 = .tcp c.port dstPort flags) : (direct s p h m).2.1.dstMac = b.mac ∧ (direct s p h m).2.2.dstIp = b.ip ∧
      ∃ srcPort, (direct s p h m).2.2.l4 = .tcp srcPort b.port flags := by
  have hport : h.l4.tcpSrcPort p.undefined = c.port := by rw [hl, L4.tcpSrcPort]
  simp only [direct, identifier_tcp _ _ _ _ hm hf, h₁, hip, hport, hs.requestClientIp, hs.requestClientPort, decide_true,
    migrationRequest_tcp _ _ _ _ hm hf, hs.ownerMacHi32, hs.ownerMacLo16, hs.ownerIp, hs.ownerPort, hi32_append_lo16]
  simp only [hl, L4.setTcpDstPort]
  split
  · exact ⟨rfl, rfl, fePort, rfl⟩
  · exact ⟨rfl, rfl, c.port, rfl⟩

theorem direct_tcp_source (hs : Holds hash s c b) (hm : m.initialDistribution = false) (hf : m.flag = 0)
    (h₂ : m.hash2 = hash c) (hip : h.dstIp = c.ip) {srcPort : BitVec 16} {flags : BitVec 8}
    (hl : h.l4 = .tcp srcPort c.port flags) : (direct s p h m).2.1.srcMac = feMac ∧ (direct s p h m).2.2.srcIp = feIp ∧
      ∃ dstPort, (direct s p h m).2.2.l4 = .tcp fePort dstPort flags := by
  have hport : h.l4.tcpDstPort p.undefined = c.port := by rw [hl, L4.tcpDstPort]
  simp only [direct, identifier_tcp _ _ _ _ hm hf, h₂, hip, hport, hs.replyClientIp, hs.replyClientPort, decide_true]
  rw [if_pos ⟨hm, hf, trivial, trivial⟩]
  simp only [hl, L4.setTcpDstPort, L4.setTcpSrcPort]
  exact ⟨trivial, trivial, _, rfl⟩

theorem destination_eq {srcPort : BitVec 16} {flags : BitVec 8} (hmac : p.dstMac = b.mac) (hip : h.dstIp = b.ip)
    (hl : h.l4 = .tcp srcPort b.port flags) : Packet.destination { p with ipv4 := some h } = some b := by
  obtain ⟨srcIp, dstIp, l4⟩ := h
  obtain rfl : l4 = _ := hl
  obtain rfl : dstIp = _ := hip
  simp only [Packet.destination, hmac]

theorem source_eq {dstPort : BitVec 16} {flags : BitVec 8} (hmac : p.srcMac = b.mac) (hip : h.srcIp = b.ip)
    (hl : h.l4 = .tcp b.port dstPort flags) : Packet.source { p with ipv4 := some h } = some b := by
  obtain ⟨srcIp, dstIp, l4⟩ := h
  obtain rfl : l4 = _ := hl
  obtain rfl : srcIp = _ := hip
  simp only [Packet.source, hmac]

/-- A SYN makes the backend that it is sent to the owner of its client. -/
theorem holds_of_syn (s : Registers) (hp : p.SynFrom c) :
    ∃ b, (ingress hash s p).2.1.destination = some b ∧ Holds hash (ingress hash s p).1 c b := by
  obtain ⟨h, dstPort, he, hip, hl, hfe⟩ := hp
  obtain ⟨ip, port⟩ := c
  obtain rfl : h.srcIp = ip := hip
  refine ⟨s.backend s.beIdx, ?_, ?_⟩
  · rw [ingress_of_enters he]
    simp only [classify, hl, hfe, and_self, if_true, getBeIdx]
    rw [(direct_initial rfl rfl rfl rfl).2]
    rfl
  · rw [ingress_of_enters he]
    simp only [classify, hl, hfe, and_self, if_true, getBeIdx]
    exact (direct_initial rfl rfl rfl rfl).1

theorem holds_of_ack {b₀ : Owner} (hs : Holds hash s c b₀) (hp : p.AckFor c b) :
    Holds hash (ingress hash s p).1 c b := by
  obtain ⟨h, dstPort, mig, he, hl, hip, hport, hmac, hsrc, hflag⟩ := hp
  have hf := isLoadAck_iff.mp hflag
  have hc : (⟨mig.clientIp, mig.clientPort⟩ : Client) = c := Client.ext hip hport
  have hb : (⟨p.srcMac, h.srcIp, b.port⟩ : Owner) = b := by rw [hmac, hsrc]
  rw [ingress_of_enters he]
  simp only [classify, hl, hc]
  have hload : mig.flag.getLsbD 0 = true := by
    rw [hf]
    rfl
  have hack := direct_ack (p := { p with dstMac := beMac }) (h := { h with dstIp := beIp })
    (m := ⟨false, mig.flag, c, b, hash c, hash c⟩) hs rfl hf rfl
  rw [if_pos hload, hb, ← hl]
  exact hack

theorem destination_of_nonSyn (hs : Holds hash s c b) (hp : p.NonSynFrom c) :
    (ingress hash s p).2.1.destination = some b := by
  obtain ⟨h, dstPort, flags, he, hip, hl, hflags⟩ := hp
  have hc : (⟨h.srcIp, c.port⟩ : Client) = c := Client.ext hip rfl
  rw [ingress_of_enters he]
  simp only [classify, hl, hflags, false_and, if_false]
  obtain ⟨hmac, hdst, srcPort, hl4⟩ := direct_tcp_destination (p := p)
    (m := ⟨false, 0, ⟨0, 0⟩, noOwner, hash ⟨h.srcIp, c.port⟩, hash ⟨h.dstIp, dstPort⟩⟩) hs rfl rfl (congrArg hash hc) hip hl
  exact destination_eq hmac hdst hl4

def frontEnd : Owner := ⟨feMac, feIp, fePort⟩

theorem source_of_reply (hs : Holds hash s c b) (hp : p.ReplyTo c) : (ingress hash s p).2.1.source = some frontEnd := by
  obtain ⟨h, srcPort, flags, he, hip, hl, hsyn⟩ := hp
  have hc : (⟨h.dstIp, c.port⟩ : Client) = c := Client.ext hip rfl
  rw [ingress_of_enters he]
  simp only [classify, hl, hsyn, if_false]
  obtain ⟨hmac, hsrc, dstPort, hl4⟩ := direct_tcp_source (p := p)
    (m := ⟨false, 0, ⟨0, 0⟩, noOwner, hash ⟨h.srcIp, srcPort⟩, hash ⟨h.dstIp, c.port⟩⟩) hs rfl rfl (congrArg hash hc) hip hl
  exact source_eq (b := frontEnd) hmac hsrc hl4

/-- Nobody else whose SYNs come by has the index of the client. -/
def Distinct (hash : Client → Index) (c : Client) (packets : List Packet) : Prop :=
  ∀ p ∈ packets, ∀ c', p.SynFrom c' → hash c' = hash c → c' = c

theorem Holds.registers {packets : List Packet} (hs : Holds hash s c b) (hd : Distinct hash c packets)
    (hno : ∀ p ∈ packets, ¬p.SynFrom c ∧ ∀ b', ¬p.AckFor c b') : Holds hash (registers hash s packets) c b := by
  induction packets generalizing s with
  | nil => exact hs
  | cons p packets ih =>
    obtain ⟨hsyn, hack⟩ := hno p List.mem_cons_self
    exact ih (hs.step hsyn hack (hd p List.mem_cons_self)) (fun p' hp' => hd p' (List.mem_cons_of_mem p hp'))
      fun p' hp' => hno p' (List.mem_cons_of_mem p hp')

theorem Holds.kept {packets : List Packet} (hs : Holds hash s c b) (hd : Distinct hash c packets) :
    ∃ b', Holds hash (Switch.registers hash s packets) c b' := by
  induction packets generalizing s b with
  | nil => exact ⟨b, hs⟩
  | cons p packets ih =>
    have hd' : Distinct hash c packets := fun p' hp' => hd p' (List.mem_cons_of_mem p hp')
    by_cases hsyn : p.SynFrom c
    · obtain ⟨b', -, hs'⟩ := holds_of_syn s hsyn
      exact ih hs' hd'
    · by_cases hack : ∃ b', p.AckFor c b'
      · obtain ⟨b', hack⟩ := hack
        exact ih (holds_of_ack hs hack) hd'
      · exact ih (hs.step hsyn (not_exists.mp hack) (hd p List.mem_cons_self)) hd'

theorem registers_append (s : Registers) (packets packets' : List Packet) :
    registers hash s (packets ++ packets') = registers hash (registers hash s packets) packets' := List.foldl_append

/-- A client that has sent a SYN is known from then on. -/
theorem known_of_syn {packets : List Packet} (s : Registers) (hd : Distinct hash c packets)
    (hsyn : ∃ p ∈ packets, p.SynFrom c) : ∃ b, Holds hash (registers hash s packets) c b := by
  obtain ⟨p, hp, hfrom⟩ := hsyn
  obtain ⟨before, after, rfl⟩ := List.append_of_mem hp
  obtain ⟨b, -, hs⟩ := holds_of_syn (registers hash s before) hfrom
  rw [registers_append]
  exact hs.kept fun p' hp' => hd p' (List.mem_append_right before (List.mem_cons_of_mem p hp'))

/-- The packet makes the backend the owner of the client: a SYN that is sent to it, or a loading acknowledgement from
it for a client that has sent a SYN before. -/
def SetsOwner (hash : Client → Index) (s : Registers) (before : List Packet) (q : Packet) (c : Client) (b : Owner) : Prop :=
  (q.SynFrom c ∧ (ingress hash (registers hash s before) q).2.1.destination = some b) ∨
    ((∃ p ∈ before, p.SynFrom c) ∧ q.AckFor c b)

/-- The owner that a client's latest SYN or matching acknowledgement has set receives what the client sends, and
replies to the client come from the front end. -/
theorem ingress_latest_owner {s : Registers} {before after : List Packet} {q : Packet}
    (hd : Distinct hash c (before ++ q :: after)) (hq : SetsOwner hash s before q c b)
    (hafter : ∀ p ∈ after, ¬p.SynFrom c ∧ ∀ b', ¬p.AckFor c b') :
    (∀ p, p.NonSynFrom c → (ingress hash (registers hash s (before ++ q :: after)) p).2.1.destination = some b) ∧
      ∀ p, p.ReplyTo c → (ingress hash (registers hash s (before ++ q :: after)) p).2.1.source = some frontEnd := by
  have hbefore : Distinct hash c before := fun p hp => hd p (List.mem_append_left _ hp)
  have hlater : Distinct hash c after := fun p hp => hd p (List.mem_append_right _ (List.mem_cons_of_mem q hp))
  have hset : Holds hash (ingress hash (registers hash s before) q).1 c b := by
    rcases hq with ⟨hsyn, hdest⟩ | ⟨hsyn, hack⟩
    · obtain ⟨b', hdest', hs⟩ : ∃ b', (ingress hash (registers hash s before) q).2.1.destination = some b' ∧
          Holds hash (ingress hash (registers hash s before) q).1 c b' := holds_of_syn _ hsyn
      rw [hdest'] at hdest
      exact Option.some.inj hdest ▸ hs
    · obtain ⟨b₀, hs⟩ := known_of_syn s hbefore hsyn
      exact holds_of_ack hs hack
  have hholds := hset.registers hlater hafter
  rw [registers_append]
  exact ⟨fun p hp => destination_of_nonSyn hholds hp, fun p hp => source_of_reply hholds hp⟩

def sampleHash (c : Client) : Index := c.ip.setWidth 16 ^^^ c.port

def sampleRegisters : Registers :=
  ⟨0, fun _ => 0, fun _ => 0, fun _ => 0x0a000109, fun _ => 10000, fun _ => 0, fun _ => 0, fun _ => 0, fun _ => 0,
    fun _ => 0, fun _ => 0, fun _ => 0, fun _ => 0⟩

def samplePacket (srcMac : BitVec 48) (h : Ipv4) : Packet := ⟨24, false, srcMac, feMac, some h, ⟨0, 0, 0, 0⟩⟩

def sampleSyn : Packet := samplePacket 1 ⟨0x0a000101, feIp, .tcp 7000 fePort 0b00000010⟩

def sampleAck : Packet := samplePacket beMac ⟨beIp, feIp, .udp 10001 10000 (some ⟨0x0a000101, 7000, 0b00110001⟩)⟩

theorem ingress_latest_owner_sample :
    (∀ p, p.NonSynFrom ⟨0x0a000101, 7000⟩ →
      (ingress sampleHash (registers sampleHash sampleRegisters ([sampleSyn] ++ sampleAck :: [])) p).2.1.destination =
        some ⟨beMac, beIp, 10001⟩) ∧
    ∀ p, p.ReplyTo ⟨0x0a000101, 7000⟩ →
      (ingress sampleHash (registers sampleHash sampleRegisters ([sampleSyn] ++ sampleAck :: [])) p).2.1.source =
        some frontEnd := by
  have hsyn : sampleSyn.SynFrom ⟨0x0a000101, 7000⟩ := ⟨_, fePort, rfl, rfl, rfl, rfl⟩
  refine ingress_latest_owner ?_ (.inr ⟨⟨sampleSyn, List.mem_singleton_self _, hsyn⟩, ?_⟩) (by simp)
  · intro p hp c' hfrom _
    obtain ⟨h, dstPort, he, hip, hl, -⟩ := hfrom
    rcases List.mem_cons.mp hp with rfl | hp
    · cases he
      exact Client.ext hip.symm (L4.tcp.inj hl).1.symm
    · obtain rfl := List.mem_singleton.mp hp
      cases he
      cases hl
  · exact ⟨_, 10000, _, rfl, rfl, rfl, rfl, rfl, rfl, isLoadAck_iff.mpr rfl⟩

end Switch

end Capybara
