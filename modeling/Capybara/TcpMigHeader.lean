import Capybara.Frames

namespace Capybara

open Wire

def tcpmigHeaderSize : Nat := 28

def magicNumber : UInt32 := 0xCAFEDEAD

inductive MigrationStage
  | none | rejected | prepareMigration | prepareMigrationAck | connectionState | connectionStateAck
  | heartbeatUpdate | heartbeatResponse
  deriving DecidableEq, Repr

def MigrationStage.code : MigrationStage → UInt8
  | .none => 0
  | .rejected => 1
  | .prepareMigration => 2
  | .prepareMigrationAck => 3
  | .connectionState => 4
  | .connectionStateAck => 5
  | .heartbeatUpdate => 12
  | .heartbeatResponse => 13

def MigrationStage.tryFrom (value : UInt8) : Except Fail MigrationStage :=
  match value.toNat with
  | 0 => .ok .none
  | 1 => .ok .rejected
  | 2 => .ok .prepareMigration
  | 3 => .ok .prepareMigrationAck
  | 4 => .ok .connectionState
  | 5 => .ok .connectionStateAck
  | 12 => .ok .heartbeatUpdate
  | 13 => .ok .heartbeatResponse
  | e => .error ⟨.EBADMSG, "Invalid TCPMig stage: " ++ toString e⟩

/-- The two ports are those of the server processes. -/
structure TcpMigHeader where
  origin : SocketAddrV4
  client : SocketAddrV4
  length : UInt16
  fragmentOffset : UInt16
  flagLoad : Bool
  flagNextFragment : Bool
  stage : MigrationStage
  sourceUdpPort : UInt16
  destUdpPort : UInt16
  deriving DecidableEq, Repr

def addrAt (buf : Buffer) (i : Nat) : SocketAddrV4 := ⟨ipv4At buf i, u16At buf (i + 4)⟩

namespace TcpMigHeader

/-- The length field is a sum on `u16`, which panics on overflow. -/
def new (origin client : SocketAddrV4) (payloadLength : UInt16) (stage : MigrationStage)
    (sourceUdpPort destUdpPort : UInt16) : Option TcpMigHeader :=
  if tcpmigHeaderSize + payloadLength.toNat < 2 ^ 16 then
    some {
      origin := origin
      client := client
      length := 28 + payloadLength
      fragmentOffset := 0
      flagLoad := false
      flagNextFragment := false
      stage := stage
      sourceUdpPort := sourceUdpPort
      destUdpPort := destUdpPort }
  else none

def swapSrcDstPort (h : TcpMigHeader) : TcpMigHeader :=
  { h with sourceUdpPort := h.destUdpPort, destUdpPort := h.sourceUdpPort }

def flagsAndStage (flagLoad flagNextFragment : Bool) (stage : MigrationStage) : UInt8 :=
  let load : UInt8 := if flagLoad then 1 else (0 : UInt8) <<< (0 : UInt8)
  let next : UInt8 := if flagNextFragment then 1 else 0
  load ||| (next <<< 1) ||| (stage.code <<< 4)

/-- The header of the whole message that a fragment belongs to. -/
def whole (h : TcpMigHeader) : TcpMigHeader := { h with flagNextFragment := false, fragmentOffset := 0 }

def serializeFlagsAndStage (h : TcpMigHeader) : UInt8 := flagsAndStage h.flagLoad h.flagNextFragment h.stage

/-- The header bytes without the checksum field: those before it and those behind it. -/
def leading (h : TcpMigHeader) : Buffer := be16 h.sourceUdpPort ++ be16 h.destUdpPort ++ be16 h.length

def trailing (h : TcpMigHeader) : Buffer :=
  be32 magicNumber ++ h.origin.ip.octets ++ be16 h.origin.port ++ h.client.ip.octets ++ be16 h.client.port
    ++ be16 h.fragmentOffset ++ [h.serializeFlagsAndStage, 0]

/-- A wrapping sum of words, negated; a last odd byte is padded with a zero byte. -/
def checksum (ipv4Hdr : Ipv4Header) (migrationHdr data : Buffer) : UInt16 :=
  let padded := if data.length % 2 = 0 then [0, 0] else [data.getLastD 0, 0]
  let sum := (words ipv4Hdr.srcAddr.octets ++ words ipv4Hdr.dstAddr.octets ++ words (migrationHdr.take 6)
    ++ words (migrationHdr.drop 8) ++ words data ++ words padded).foldl (· + ·) 0
  0 - sum

def serialize (h : TcpMigHeader) (ipv4Hdr : Ipv4Header) (data : Buffer) : Buffer :=
  h.leading ++ be16 (checksum ipv4Hdr (h.leading ++ be16 0 ++ h.trailing) data) ++ h.trailing

def parse (ipv4Hdr : Ipv4Header) (buf : Buffer) : Except Fail (TcpMigHeader × Buffer) := do
  refuse (buf.length < tcpmigHeaderSize) ⟨.EBADMSG, "TCPMig segment too small"⟩
  refuse (u32At buf 8 ≠ magicNumber) ⟨.EBADMSG, "not a TCPMig segment"⟩
  let flags := byteAt buf 26
  let stage ← MigrationStage.tryFrom ((flags &&& 0xF0) >>> 4)
  let sum := u16At buf 6
  refuse (sum ≠ 0 ∧ sum ≠ checksum ipv4Hdr (buf.take tcpmigHeaderSize) (buf.drop tcpmigHeaderSize))
    ⟨.EBADMSG, "TCPMig checksum mismatch"⟩
  return ({
    origin := addrAt buf 12
    client := addrAt buf 18
    length := u16At buf 4
    fragmentOffset := u16At buf 24
    flagLoad := flags &&& 1 ≠ 0
    flagNextFragment := flags &&& 2 ≠ 0
    stage := stage
    sourceUdpPort := u16At buf 0
    destUdpPort := u16At buf 2 }, buf.drop tcpmigHeaderSize)

theorem flagsAndStage_load (load next : Bool) (stage : MigrationStage) :
    decide (flagsAndStage load next stage &&& 1 ≠ 0) = load := by
  cases load <;> cases next <;> cases stage <;> decide

theorem flagsAndStage_next (load next : Bool) (stage : MigrationStage) :
    decide (flagsAndStage load next stage &&& 2 ≠ 0) = next := by
  cases load <;> cases next <;> cases stage <;> decide

theorem flagsAndStage_stage (load next : Bool) (stage : MigrationStage) :
    MigrationStage.tryFrom ((flagsAndStage load next stage &&& 0xF0) >>> 4) = .ok stage := by
  cases load <;> cases next <;> cases stage <;> rfl

theorem length_serialize (h : TcpMigHeader) (ipv4Hdr : Ipv4Header) (data : Buffer) :
    (h.serialize ipv4Hdr data).length = tcpmigHeaderSize := rfl

/-- The checksum field itself is left out of the sum. -/
theorem checksum_serialize (h : TcpMigHeader) (ipv4Hdr : Ipv4Header) (data : Buffer) (sum : UInt16) :
    checksum ipv4Hdr (h.leading ++ be16 sum ++ h.trailing) data =
      checksum ipv4Hdr (h.leading ++ be16 0 ++ h.trailing) data := by
  have hl : ∀ x, (h.leading ++ be16 x ++ h.trailing).take 6 = h.leading := fun x => rfl
  have ht : ∀ x, (h.leading ++ be16 x ++ h.trailing).drop 8 = h.trailing := fun x => rfl
  simp only [checksum, hl, ht]

theorem parse_serialize (h : TcpMigHeader) (ipv4Hdr : Ipv4Header) (data : Buffer) :
    parse ipv4Hdr (h.serialize ipv4Hdr data ++ data) = .ok (h, data) := by
  have hload := flagsAndStage_load h.flagLoad h.flagNextFragment h.stage
  have hnext := flagsAndStage_next h.flagLoad h.flagNextFragment h.stage
  have hstage := flagsAndStage_stage h.flagLoad h.flagNextFragment h.stage
  unfold serialize
  generalize hs : checksum ipv4Hdr (h.leading ++ be16 0 ++ h.trailing) data = sum
  generalize hb : h.leading ++ be16 sum ++ h.trailing ++ data = buf
  have hlen : (h.leading ++ be16 sum ++ h.trailing).length = tcpmigHeaderSize := rfl
  have htake : buf.take tcpmigHeaderSize = h.leading ++ be16 sum ++ h.trailing := by
    rw [← hb, List.take_left' hlen]
  have hdrop : buf.drop tcpmigHeaderSize = data := by rw [← hb, List.drop_left' hlen]
  have hl : ¬buf.length < tcpmigHeaderSize := by
    rw [← hb, List.length_append, hlen]
    omega
  have hsum : checksum ipv4Hdr (h.leading ++ be16 sum ++ h.trailing) data = sum := by
    rw [checksum_serialize, hs]
  have h0 : u16At buf 0 = h.sourceUdpPort := by rw [← hb]; exact ofBe16_be16 _
  have h2 : u16At buf 2 = h.destUdpPort := by rw [← hb]; exact ofBe16_be16 _
  have h4 : u16At buf 4 = h.length := by rw [← hb]; exact ofBe16_be16 _
  have h6 : u16At buf 6 = sum := by rw [← hb]; exact ofBe16_be16 _
  have h8 : u32At buf 8 = magicNumber := by rw [← hb]; exact ofBe32_be32 _
  have h12 : addrAt buf 12 = h.origin := by
    rw [← hb]
    exact congrArg (SocketAddrV4.mk h.origin.ip) (ofBe16_be16 h.origin.port)
  have h18 : addrAt buf 18 = h.client := by
    rw [← hb]
    exact congrArg (SocketAddrV4.mk h.client.ip) (ofBe16_be16 h.client.port)
  have h24 : u16At buf 24 = h.fragmentOffset := by rw [← hb]; exact ofBe16_be16 _
  have h26 : byteAt buf 26 = flagsAndStage h.flagLoad h.flagNextFragment h.stage := by rw [← hb]; rfl
  simp only [parse, htake, hdrop, hl, hsum, h0, h2, h4, h6, h8, h12, h18, h24, h26, hload, hnext, hstage]
  simp [refuse]
  rfl

end TcpMigHeader

end Capybara
