import Capybara.StateCodec

namespace Capybara

open Wire

def lenEnc (n : Nat) : Buffer := be32 (UInt32.ofNat n)

def bufferEnc (buf : Buffer) : Buffer := lenEnc buf.length ++ buf

def dequeEnc {α : Type} (enc : α → Buffer) (queue : List α) : Buffer := lenEnc queue.length ++ queue.flatMap enc

def optionEnc {α : Type} (enc : α → Buffer) : Option α → Buffer
  | some a => [1] ++ enc a
  | none => [0]

def BufferFits (buf : Buffer) : Prop := buf.length < 2 ^ 32

def DequeFits {α : Type} (p : α → Prop) (queue : List α) : Prop := queue.length < 2 ^ 32 ∧ ∀ a ∈ queue, p a

theorem writes_len (n : Nat) : Writes (lenInto n) (n < 2 ^ 32) (lenEnc n) :=
  (writes_put _).guard.congr (by simp)

theorem writes_buffer (buf : Buffer) : Writes (bufferInto buf) (BufferFits buf) (bufferEnc buf) :=
  ((writes_len _).andThen (writes_put _)).congr (by simp [BufferFits])

theorem writes_deque {α : Type} {w : α → Write} {p : α → Prop} {enc : α → Buffer}
    (h : ∀ a, Writes (w a) (p a) (enc a)) (queue : List α) :
    Writes (dequeInto w queue) (DequeFits p queue) (dequeEnc enc queue) :=
  (writes_len _).andThen (writes_writeAll h _)

theorem writes_option {α : Type} {w : α → Write} {enc : α → Buffer} (h : ∀ a, Writes (w a) True (enc a))
    (o : Option α) : Writes (optionInto w o) True (optionEnc enc o) := by
  cases o with
  | none => exact writes_put _
  | some a => exact ((writes_put _).andThen (h a)).congr (by simp)

theorem reads_buffer {buf : Buffer} (h : BufferFits buf) : Reads bufferFrom (bufferEnc buf) buf := by
  have hn : (UInt32.ofNat buf.length).toNat = buf.length := UInt32.toNat_ofNat_of_lt' h
  exact (reads_be32 _).bind (reads_take hn.symm)

theorem reads_deque {α β : Type} {r : Read β} {enc : α → Buffer} {f : α → β} {p : α → Prop} {queue : List α}
    (h : ∀ a, p a → Reads r (enc a) (f a)) (hq : DequeFits p queue) :
    Reads (dequeFrom r) (dequeEnc enc queue) (queue.map f) := by
  have hn : (UInt32.ofNat queue.length).toNat = queue.length := UInt32.toNat_ofNat_of_lt' hq.1
  have hm := reads_readMany fun a ha => h a (hq.2 a ha)
  exact (reads_be32 _).bind (by rwa [hn])

theorem writes_seqNumber (s : SeqNumber) : Writes s.serializeInto True (be32 s.value) := writes_put _

theorem reads_seqNumber (s : SeqNumber) : Reads SeqNumber.deserializeFrom (be32 s.value) s :=
  (reads_be32 s.value).pure SeqNumber.mk

theorem reads_outOfOrder {entry : SeqNumber × Buffer} (h : BufferFits entry.2) :
    Reads outOfOrderFrom (be32 entry.1.value ++ bufferEnc entry.2) entry :=
  (reads_seqNumber entry.1).bind ((reads_buffer h).pure _)

/-- What is left of an unacknowledged segment after its encoding is read back. -/
def UnackedSegment.resetTx (segment : UnackedSegment) : UnackedSegment := { segment with initialTx := none }

theorem reads_unacked {segment : UnackedSegment} (h : BufferFits segment.bytes) :
    Reads UnackedSegment.deserializeFrom (bufferEnc segment.bytes) segment.resetTx :=
  (reads_buffer h).pure _

theorem reads_octets (addr : SocketAddrV4) : Reads SocketAddrV4.fromOctets addr.octets addr := by
  change Reads _ ([addr.ip.a] ++ ([addr.ip.b] ++ ([addr.ip.c] ++ ([addr.ip.d] ++ be16 addr.port)))) _
  exact (reads_u8 _).bind ((reads_u8 _).bind ((reads_u8 _).bind ((reads_u8 _).bind ((reads_be16 _).pure _))))

theorem reads_option {α : Type} {r : Read α} {enc : α → Buffer} (h : ∀ a, Reads r (enc a) a) (o : Option α) :
    Reads (optionFrom r) (optionEnc enc o) o := by
  cases o with
  | none => exact (reads_u8 0).bind fun _ => rfl
  | some a => exact (reads_u8 1).bind ((h a).pure some)

/-- All lengths of the send queues fit their length prefixes. -/
def SenderState.Fits (s : SenderState) : Prop :=
  DequeFits (fun e => BufferFits e.bytes) s.unackedQueue ∧ DequeFits BufferFits s.unsentQueue

def ReceiverState.Fits (r : ReceiverState) : Prop := DequeFits BufferFits r.recvQueue

def ControlBlockState.Fits (c : ControlBlockState) : Prop :=
  DequeFits (fun e => BufferFits e.2) c.outOfOrderQueue ∧ c.receiver.Fits ∧ c.sender.Fits

def SenderState.encode (s : SenderState) : Buffer :=
  be32 s.unsentSeqNo.value ++ be32 s.sendUnacked.value ++ be32 s.sendNext.value ++ be32 s.sendWindow
    ++ be32 s.sendWindowLastUpdateSeq.value ++ be32 s.sendWindowLastUpdateAck.value ++ be32 s.mss
    ++ [s.windowScale] ++ dequeEnc (fun e => bufferEnc e.bytes) s.unackedQueue ++ dequeEnc bufferEnc s.unsentQueue

def ReceiverState.encode (r : ReceiverState) : Buffer :=
  be32 r.readerNext.value ++ be32 r.receiveNext.value ++ dequeEnc bufferEnc r.recvQueue

def ControlBlockState.encode (c : ControlBlockState) : Buffer :=
  c.local_.octets ++ c.remote.octets ++ be32 c.receiveBufferSize ++ be32 c.windowScale
    ++ optionEnc (fun s => be32 s.value) c.outOfOrderFin
    ++ dequeEnc (fun e => be32 e.1.value ++ bufferEnc e.2) c.outOfOrderQueue
    ++ c.receiver.encode ++ c.sender.encode

theorem writes_sender (s : SenderState) : Writes s.serializeInto s.Fits s.encode := by
  have hs := writes_seqNumber
  have hunacked := writes_deque (fun e : UnackedSegment => writes_buffer e.bytes) s.unackedQueue
  have hunsent := writes_deque writes_buffer s.unsentQueue
  have h := hs s.unsentSeqNo |>.andThen (hs s.sendUnacked) |>.andThen (hs s.sendNext)
    |>.andThen (writes_put (be32 s.sendWindow)) |>.andThen (hs s.sendWindowLastUpdateSeq)
    |>.andThen (hs s.sendWindowLastUpdateAck) |>.andThen (writes_put (be32 s.mss))
    |>.andThen (writes_put [s.windowScale]) |>.andThen hunacked |>.andThen hunsent
  exact h.congr (by simp [SenderState.Fits])

theorem writes_receiver (r : ReceiverState) : Writes r.serializeInto r.Fits r.encode := by
  have hs := writes_seqNumber
  have h := hs r.readerNext |>.andThen (hs r.receiveNext) |>.andThen (writes_deque writes_buffer r.recvQueue)
  exact h.congr (by simp [ReceiverState.Fits])

theorem writes_controlBlock (c : ControlBlockState) : Writes c.serializeInto c.Fits c.encode := by
  have hentry := fun e : SeqNumber × Buffer => (writes_seqNumber e.1).andThen (writes_buffer e.2)
  have h := writes_put c.local_.octets |>.andThen (writes_put c.remote.octets)
    |>.andThen (writes_put (be32 c.receiveBufferSize)) |>.andThen (writes_put (be32 c.windowScale))
    |>.andThen (writes_option writes_seqNumber c.outOfOrderFin)
    |>.andThen (writes_deque hentry c.outOfOrderQueue)
    |>.andThen (writes_receiver c.receiver) |>.andThen (writes_sender c.sender)
  exact h.congr (by simp [ControlBlockState.Fits, and_assoc])

/-- The state of a connection as it comes out of its encoding. -/
def SenderState.resetTx (s : SenderState) : SenderState :=
  { s with unackedQueue := s.unackedQueue.map UnackedSegment.resetTx }

def ControlBlockState.resetTx (c : ControlBlockState) : ControlBlockState := { c with sender := c.sender.resetTx }

theorem reads_sender {s : SenderState} (h : s.Fits) : Reads SenderState.deserializeFrom s.encode s.resetTx := by
  have hs := reads_seqNumber
  have hunacked := reads_deque (fun _ => reads_unacked) h.1
  have hunsent := reads_deque (fun _ => reads_buffer) h.2
  rw [List.map_id'] at hunsent
  simp only [SenderState.encode, List.append_assoc]
  exact (hs _).bind ((hs _).bind ((hs _).bind ((reads_be32 _).bind ((hs _).bind ((hs _).bind
    ((reads_be32 _).bind ((reads_u8 _).bind (hunacked.bind (hunsent.pure _)))))))))

theorem reads_receiver {r : ReceiverState} (h : r.Fits) : Reads ReceiverState.deserializeFrom r.encode r := by
  have hs := reads_seqNumber
  have hq := reads_deque (fun _ => reads_buffer) h
  rw [List.map_id'] at hq
  simp only [ReceiverState.encode, List.append_assoc]
  exact (hs _).bind ((hs _).bind (hq.pure _))

theorem reads_controlBlock {c : ControlBlockState} (h : c.Fits) :
    Reads ControlBlockState.deserializeFrom c.encode c.resetTx := by
  have ho := reads_octets
  have hentries := reads_deque (fun _ => reads_outOfOrder) h.1
  rw [List.map_id'] at hentries
  simp only [ControlBlockState.encode, List.append_assoc]
  exact (ho _).bind ((ho _).bind ((reads_be32 _).bind ((reads_be32 _).bind ((reads_option reads_seqNumber _).bind
    (hentries.bind ((reads_receiver h.2.1).bind ((reads_sender h.2.2).pure _)))))))

theorem length_bufferEnc (buf : Buffer) : (bufferEnc buf).length = 4 + buf.length := by
  simp [bufferEnc, lenEnc]

theorem length_dequeEnc {α : Type} {enc : α → Buffer} {f : Nat → α → Nat}
    (h : ∀ n a, f n a = n + (enc a).length) (queue : List α) :
    (dequeEnc enc queue).length = 4 + queue.foldl f 0 := by
  simp [dequeEnc, lenEnc, foldl_length_flatMap h]

theorem length_bufferDeque (queue : List Buffer) :
    (dequeEnc bufferEnc queue).length = 4 + queue.foldl (fun acc e => acc + 4 + e.length) 0 := by
  apply length_dequeEnc
  intro n e
  rw [length_bufferEnc, Nat.add_assoc]

theorem SenderState.length_encode (s : SenderState) : s.encode.length = s.serializedSize := by
  have hunacked : (dequeEnc (fun e : UnackedSegment => bufferEnc e.bytes) s.unackedQueue).length =
      4 + s.unackedQueue.foldl (fun acc e => acc + 4 + e.bytes.length) 0 := by
    apply length_dequeEnc
    intro n e
    rw [length_bufferEnc, Nat.add_assoc]
  simp only [SenderState.encode, SenderState.serializedSize, List.length_append, length_be32, hunacked,
    length_bufferDeque, List.length_singleton]

theorem ReceiverState.length_encode (r : ReceiverState) : r.encode.length = r.serializedSize := by
  simp only [ReceiverState.encode, ReceiverState.serializedSize, List.length_append, length_be32, length_bufferDeque]

theorem length_optionEnc (o : Option SeqNumber) :
    (optionEnc (fun s => be32 s.value) o).length = 1 + if o.isSome then 4 else 0 := by
  cases o <;> rfl

theorem ControlBlockState.length_encode (c : ControlBlockState) : c.encode.length = c.serializedSize := by
  have hentries : (dequeEnc (fun e : SeqNumber × Buffer => be32 e.1.value ++ bufferEnc e.2) c.outOfOrderQueue).length =
      4 + c.outOfOrderQueue.foldl (fun acc e => acc + 4 + 4 + e.2.length) 0 := by
    apply length_dequeEnc
    intro n e
    rw [List.length_append, length_be32, length_bufferEnc]
    omega
  have haddr : ∀ addr : SocketAddrV4, addr.octets.length = 6 := fun _ => rfl
  simp only [ControlBlockState.encode, ControlBlockState.serializedSize, List.length_append, length_be32, hentries,
    haddr, length_optionEnc, c.receiver.length_encode, c.sender.length_encode]

/-- The tag and the application bytes behind the control block. -/
def MigratedApplicationState.encode : MigratedApplicationState → Buffer
  | .registered state => if state.serializedSize = 0 then [0] else [1] ++ state.image
  | .none | .migratedIn _ => [0]

/-- What the target finds of an application state. -/
def MigratedApplicationState.received : MigratedApplicationState → MigratedApplicationState
  | .registered state => if state.serializedSize = 0 then .none else .migratedIn state.image
  | .none | .migratedIn _ => .none

theorem writes_appState (a : MigratedApplicationState) : Writes (TcpState.appStateInto a) True a.encode := by
  cases a with
  | registered state =>
    simp only [TcpState.appStateInto, MigratedApplicationState.encode]
    split
    next => exact writes_put _
    next => exact ((writes_put _).andThen (writes_put _)).congr (by simp)
  | none => exact writes_put _
  | migratedIn _ => exact writes_put _

theorem length_appEncode (a : MigratedApplicationState) : a.encode.length = 1 + a.serializedSize := by
  cases a with
  | registered state =>
    simp only [MigratedApplicationState.encode, MigratedApplicationState.serializedSize]
    split
    next h => simp [h]
    next => simp [ApplicationState.serializedSize, Nat.add_comm]
  | none => rfl
  | migratedIn _ => rfl

theorem reads_appState (a : MigratedApplicationState) :
    ∃ tag app, readU8 a.encode = some (tag, app) ∧
      (if tag = 0 then MigratedApplicationState.none else .migratedIn app) = a.received := by
  cases a with
  | registered state =>
    simp only [MigratedApplicationState.encode, MigratedApplicationState.received]
    split
    next => exact ⟨0, [], rfl, rfl⟩
    next => exact ⟨1, state.image, rfl, rfl⟩
  | none => exact ⟨0, [], rfl, rfl⟩
  | migratedIn _ => exact ⟨0, [], rfl, rfl⟩

namespace TcpState

def encode (s : TcpState) : Buffer := s.cb.encode ++ s.appState.encode

theorem length_encode (s : TcpState) : s.encode.length = s.serializedSize := by
  rw [encode, List.length_append, s.cb.length_encode, length_appEncode, serializedSize, Nat.add_assoc]

theorem writes_tcpState (s : TcpState) : Writes s.serializeInto s.cb.Fits s.encode :=
  ((writes_controlBlock s.cb).andThen (writes_appState s.appState)).congr (by simp)

theorem serializeInto_of_fits {s : TcpState} (h : s.cb.Fits) {buf : Buffer} (hb : buf.length = s.serializedSize) :
    s.serializeInto buf = some (s.encode, []) := by
  have hl := s.length_encode
  have hw := s.writes_tcpState.fits h buf (by omega)
  rwa [List.drop_eq_nil_of_le (by omega)] at hw

theorem newBuffer_serializedSize (s : TcpState) :
    newBuffer s.serializedSize = some (List.replicate s.serializedSize 0) := by
  apply if_neg
  unfold serializedSize
  omega

theorem serialize_of_fits {s : TcpState} (h : s.cb.Fits) : s.serialize = some s.encode := by
  have hw := serializeInto_of_fits h (@List.length_replicate UInt8 s.serializedSize 0)
  simp [serialize, newBuffer_serializedSize, hw]

theorem serialize_of_not_fits {s : TcpState} (h : ¬s.cb.Fits) : s.serialize = none := by
  simp [serialize, newBuffer_serializedSize, s.writes_tcpState.fails h]

theorem deserialize_encode {s : TcpState} (h : s.cb.Fits) :
    deserialize s.encode = some ⟨s.cb.resetTx, s.appState.received⟩ := by
  have hc := reads_controlBlock h s.appState.encode
  obtain ⟨tag, app, ha, hr⟩ := reads_appState s.appState
  simp [deserialize, encode, hc, ha, hr]

/-- Serialization fills its buffer exactly, and the target reads back the same state, without transmission
times, and the application bytes if and only if there are some. -/
theorem serialize_roundTrip (s : TcpState) (h : s.cb.Fits) :
    ∃ buf t, s.serialize = some buf ∧
      s.serializeInto (List.replicate s.serializedSize 0) = some (buf, []) ∧ buf.length = s.serializedSize ∧
      ControlBlockState.deserializeFrom buf = some (s.cb.resetTx, buf.drop s.cb.serializedSize) ∧
      deserialize buf = some t ∧ t.cb = s.cb.resetTx ∧ (∀ state, t.appState ≠ .registered state) ∧
      ∀ app, t.appState = .migratedIn app ↔
        ∃ state, s.appState = .registered state ∧ 0 < state.serializedSize ∧ app = state.image := by
  refine ⟨s.encode, ⟨s.cb.resetTx, s.appState.received⟩, serialize_of_fits h,
    serializeInto_of_fits h List.length_replicate, s.length_encode, ?_, deserialize_encode h, rfl, ?_, ?_⟩
  · have hc := reads_controlBlock h s.appState.encode
    rwa [← s.cb.length_encode, encode, List.drop_left]
  · intro state
    unfold MigratedApplicationState.received
    repeat' split
    all_goals simp
  · intro app
    cases ha : s.appState with
    | registered state =>
      by_cases hz : state.serializedSize = 0
      · simp [MigratedApplicationState.received, hz]
      · simp [MigratedApplicationState.received, hz, Nat.pos_of_ne_zero hz, eq_comm]
    | none => simp [MigratedApplicationState.received]
    | migratedIn buf => simp [MigratedApplicationState.received]

/-- A connection with something in every queue, an empty buffer among it, and two application bytes. -/
def sample : TcpState where
  cb := {
    local_ := ⟨⟨10, 0, 1, 8⟩, 10000⟩
    remote := ⟨⟨10, 0, 1, 7⟩, 201⟩
    receiveBufferSize := 65535
    windowScale := 0
    outOfOrderFin := some (.ofNat 30)
    outOfOrderQueue := [(.ofNat 20, [1, 2])]
    receiver := ⟨.ofNat 8, .ofNat 9, [[], [7]]⟩
    sender := {
      unsentSeqNo := .ofNat 5, sendUnacked := .ofNat 3, sendNext := .ofNat 4, sendWindow := 1024
      sendWindowLastUpdateSeq := .ofNat 9, sendWindowLastUpdateAck := .ofNat 3, mss := 1450, windowScale := 2
      unackedQueue := [⟨[3], some 12⟩], unsentQueue := [[4]] } }
  appState := .registered ⟨[5, 6]⟩

theorem serialize_roundTrip_sample : ∃ buf t, sample.serialize = some buf ∧ buf.length = 110 ∧
    deserialize buf = some t ∧ t.appState = .migratedIn [5, 6] := by
  have hf : sample.cb.Fits := by
    simp [sample, ControlBlockState.Fits, ReceiverState.Fits, SenderState.Fits, DequeFits, BufferFits]
  obtain ⟨buf, t, hs, _, hl, _, ht, _, _, ha⟩ := serialize_roundTrip sample hf
  exact ⟨buf, t, hs, hl, ht, (ha [5, 6]).mpr ⟨⟨[5, 6]⟩, rfl, by decide, rfl⟩⟩

end TcpState

end Capybara
