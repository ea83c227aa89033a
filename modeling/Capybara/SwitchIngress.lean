import Capybara.TcpMigHeader
import Mathlib.Logic.Function.Basic

namespace Capybara

namespace Switch

abbrev Index := BitVec 16

abbrev Port := BitVec 9

def pipe0Recirc : Port := 68

def feMac : BitVec 48 := 0x08c0ebb6e805

def feIp : BitVec 32 := 0x0a000108

def fePort : BitVec 16 := 55555

def beMac : BitVec 48 := 0x08c0ebb6c5ad

def beIp : BitVec 32 := 0x0a000109

@[ext] structure Client where
  ip : BitVec 32
  port : BitVec 16
  deriving DecidableEq

/-- A backend, as the registers and the headers name it. -/
structure Owner where
  mac : BitVec 48
  ip : BitVec 32
  port : BitVec 16
  deriving DecidableEq

structure TcpMig where
  clientIp : BitVec 32
  clientPort : BitVec 16
  flag : BitVec 8
  deriving DecidableEq

inductive L4
  | tcp (srcPort dstPort : BitVec 16) (flags : BitVec 8)
  | udp (srcPort dstPort : BitVec 16) (tcpmig : Option TcpMig)
  | other
  deriving DecidableEq

structure Ipv4 where
  srcIp : BitVec 32
  dstIp : BitVec 32
  l4 : L4
  deriving DecidableEq

/-- What reading a local before it is assigned, or a field of a header that is not there, gives. -/
structure Undefined where
  hash1 : Index
  hash2 : Index
  tcpSrcPort : BitVec 16
  tcpDstPort : BitVec 16
  deriving DecidableEq

/-- A packet as the ingress parser leaves it. -/
structure Packet where
  ingressPort : Port
  pktgen : Bool
  srcMac : BitVec 48
  dstMac : BitVec 48
  ipv4 : Option Ipv4
  undefined : Undefined
  deriving DecidableEq

inductive Verdict
  | send (port : Port)
  | multicast (group : BitVec 16)
  | broadcast
  | drop
  deriving DecidableEq

structure Registers where
  beIdx : Index
  backendMacHi32 : Index → BitVec 32
  backendMacLo16 : Index → BitVec 16
  backendIp : Index → BitVec 32
  backendPort : Index → BitVec 16
  requestClientIp : Index → BitVec 32
  requestClientPort : Index → BitVec 16
  replyClientIp : Index → BitVec 32
  replyClientPort : Index → BitVec 16
  ownerMacHi32 : Index → BitVec 32
  ownerMacLo16 : Index → BitVec 16
  ownerIp : Index → BitVec 32
  ownerPort : Index → BitVec 16

structure Meta where
  initialDistribution : Bool
  flag : BitVec 8
  client : Client
  owner : Owner
  hash1 : Index
  hash2 : Index

def hi32 (mac : BitVec 48) : BitVec 32 := mac.extractLsb' 16 32

def lo16 (mac : BitVec 48) : BitVec 16 := mac.extractLsb' 0 16

theorem hi32_append_lo16 (mac : BitVec 48) : hi32 mac ++ lo16 mac = mac := by
  apply BitVec.eq_of_getLsbD_eq
  intro i hi
  simp only [hi32, lo16, BitVec.getLsbD_append, BitVec.getLsbD_extractLsb']
  by_cases h : i < 16
  · simp [h]
  · have hlt : i - 16 < 32 := by omega
    have hadd : 16 + (i - 16) = i := by omega
    simp [h, hlt, hadd]

/-- The round robin over the backends. -/
def getBeIdx (val : Index) : Index × Index := (val, if val = 16 - 1 then 0 else val + 1)

def Registers.backend (s : Registers) (idx : Index) : Owner :=
  ⟨s.backendMacHi32 idx ++ s.backendMacLo16 idx, s.backendIp idx, s.backendPort idx⟩

def L4.tcpSrcPort (u : Undefined) : L4 → BitVec 16
  | .tcp srcPort _ _ => srcPort
  | _ => u.tcpSrcPort

def L4.tcpDstPort (u : Undefined) : L4 → BitVec 16
  | .tcp _ dstPort _ => dstPort
  | _ => u.tcpDstPort

/-- Assigning a field of a header that is not there changes nothing that leaves the switch. -/
def L4.setTcpDstPort (dstPort : BitVec 16) : L4 → L4
  | .tcp srcPort _ flags => .tcp srcPort dstPort flags
  | l4 => l4

def L4.setTcpSrcPort (srcPort : BitVec 16) : L4 → L4
  | .tcp _ dstPort flags => .tcp srcPort dstPort flags
  | l4 => l4

def noOwner : Owner := ⟨0, 0, 0⟩

/-- The part of `apply` before the registers of the directory, on the headers of an IPv4 packet. -/
def classify (hash : Client → Index) (s : Registers) (p : Packet) (h : Ipv4) : Registers × Packet × Ipv4 × Meta :=
  match h.l4 with
  | .tcp srcPort dstPort flags =>
    let hash1 := hash ⟨h.srcIp, srcPort⟩
    if flags = 0b00000010 ∧ h.dstIp = feIp then
      let (idx, beIdx) := getBeIdx s.beIdx
      let owner := s.backend idx
      ({ s with beIdx := beIdx }, { p with dstMac := owner.mac },
        { h with dstIp := owner.ip, l4 := .tcp srcPort owner.port flags },
        ⟨true, 0, ⟨h.srcIp, srcPort⟩, owner, hash1, hash1⟩)
    else (s, p, h, ⟨false, 0, ⟨0, 0⟩, noOwner, hash1, hash ⟨h.dstIp, dstPort⟩⟩)
  | .udp srcPort _ (some mig) =>
    let client : Client := ⟨mig.clientIp, mig.clientPort⟩
    let owner : Owner := if mig.flag.getLsbD 0 then ⟨p.srcMac, h.srcIp, srcPort⟩ else noOwner
    (s, { p with dstMac := beMac }, { h with dstIp := beIp }, ⟨false, mig.flag, client, owner, hash client, hash client⟩)
  | _ => (s, p, h, ⟨false, 0, ⟨0, 0⟩, noOwner, p.undefined.hash1, p.undefined.hash2⟩)

/-- The table and the register of `MigrationRequestIdentifier` and `MigrationReplyIdentifier`: a SYN writes the client,
other TCP packets compare with a field of their own, and migration messages with the client they name. -/
def identifier {α : Type} [DecidableEq α] (reg : Index → α) (index : Index) (m : Meta) (client field : α) :
    (Index → α) × Bool :=
  if m.initialDistribution then (Function.update reg index client, true)
  else if m.flag = 0 then (reg, decide (reg index = field))
  else (reg, decide (reg index = client))

/-- The table and the register of `MigrationRequest32b0` and `MigrationRequest16b0`. What is not read into `out`
leaves it as it is. -/
def migrationRequest {α : Type} (reg : Index → α) (index : Index) (m : Meta) (result00 result01 : Bool) (value out : α) :
    (Index → α) × α :=
  if result00 ∧ result01 then
    if m.initialDistribution then
      if m.flag = 0 then (Function.update reg index value, out) else (reg, out)
    else if m.flag = 0b00110001 then (Function.update reg index value, out)
    else if m.flag = 0 then (reg, reg index)
    else (reg, out)
  else (reg, out)

def l2Forwarding (dstMac : BitVec 48) : Verdict :=
  if dstMac = 0x1c34da5e0ed8 then .send 16
  else if dstMac = 0x1c34da5e0ed4 then .send 20
  else if dstMac = 0x08c0ebb6cd5d then .send 32
  else if dstMac = 0x08c0ebb6e805 then .send 36
  else if dstMac = 0x08c0ebb6c5ad then .send 24
  else if dstMac = 0x08c0ebb6e7e5 then .send 28
  else if dstMac = 0xffffffffffff then .broadcast
  else .drop

/-- The part of `apply` from the registers of the directory on. -/
def direct (s : Registers) (p : Packet) (h : Ipv4) (m : Meta) : Registers × Packet × Ipv4 :=
  let (requestClientIp, result00) := identifier s.requestClientIp m.hash1 m m.client.ip h.srcIp
  let (requestClientPort, result01) :=
    identifier s.requestClientPort m.hash1 m m.client.port (h.l4.tcpSrcPort p.undefined)
  let (replyClientIp, result02) := identifier s.replyClientIp m.hash2 m m.client.ip h.dstIp
  let (replyClientPort, result03) :=
    identifier s.replyClientPort m.hash2 m m.client.port (h.l4.tcpDstPort p.undefined)
  let (ownerMacHi32, macHi32) :=
    migrationRequest s.ownerMacHi32 m.hash1 m result00 result01 (hi32 m.owner.mac) (hi32 p.dstMac)
  let (ownerMacLo16, macLo16) :=
    migrationRequest s.ownerMacLo16 m.hash1 m result00 result01 (lo16 m.owner.mac) (lo16 p.dstMac)
  let (ownerIp, dstIp) := migrationRequest s.ownerIp m.hash1 m result00 result01 m.owner.ip h.dstIp
  let (ownerPort, dstPort) :=
    migrationRequest s.ownerPort m.hash1 m result00 result01 m.owner.port (h.l4.tcpDstPort p.undefined)
  let s := { s with
    requestClientIp := requestClientIp
    requestClientPort := requestClientPort
    replyClientIp := replyClientIp
    replyClientPort := replyClientPort
    ownerMacHi32 := ownerMacHi32
    ownerMacLo16 := ownerMacLo16
    ownerIp := ownerIp
    ownerPort := ownerPort }
  let p := { p with dstMac := macHi32 ++ macLo16 }
  let h := { h with dstIp := dstIp, l4 := h.l4.setTcpDstPort dstPort }
  if m.initialDistribution = false ∧ m.flag = 0 ∧ result02 ∧ result03 then
    (s, { p with srcMac := feMac }, { h with srcIp := feIp, l4 := h.l4.setTcpSrcPort fePort })
  else (s, p, h)

/-- `apply` of the ingress control. -/
def ingress (hash : Client → Index) (s : Registers) (p : Packet) : Registers × Packet × Verdict :=
  if p.pktgen then (s, { p with pktgen := false, dstMac := 0xffffffffffff }, .send pipe0Recirc)
  else if p.ingressPort = pipe0Recirc then (s, p, .multicast 2)
  else match p.ipv4 with
    | some h =>
      let (s, p, h, m) := classify hash s p h
      let (s, p, h) := direct s p h m
      (s, { p with ipv4 := some h }, l2Forwarding p.dstMac)
    | none => (s, p, l2Forwarding p.dstMac)

end Switch

end Capybara
