import Capybara.Connection

namespace Capybara

open ControlBlock Runs

namespace ControlBlock

/-- Whether the first piece of a buffer can be sent: it is text, or the end-of-send marker of a user who is done. -/
def PieceGoes (cb : ControlBlock) (buf : Buffer) (maxSize : Nat) : Prop :=
  buf.take maxSize = [] → cb.userIsDoneSending = true

instance (cb : ControlBlock) (buf : Buffer) (maxSize : Nat) : Decidable (cb.PieceGoes buf maxSize) :=
  inferInstanceAs (Decidable (_ → _))

end ControlBlock

namespace Connection

/-- There is text to send, nothing on its way, and both windows are open. -/
structure Idle (s : EstablishedSocket) (env : Env) : Prop where
  unackedQueue : s.cb.sender.unackedQueue = []
  unsent : s.cb.sender.unsentQueue.flatten ≠ []
  window : s.cb.sender.sendWindow ≠ 0
  cwnd : s.cb.sender.mss < env.cwnd.toNat + env.limitedTransmitCwndIncrease.toNat
  arp : env.arp.isSome = true

/-- A turn of the background sender sends a segment with text or FIN. -/
def Transmits (s : EstablishedSocket) (env : Env) : Prop :=
  ∃ s' out, s.background env = some s' ∧ s'.cb.rt = s.cb.rt ++ out ∧ ∃ t ∈ out, t.segment.data.isSome = true

/-- The sender does not repeat a window probe, the send window is larger than the first buffer that waits, and a first
piece and a header can be made. -/
def CanTransmit (s : EstablishedSocket) (env : Env) : Prop :=
  s.cb.WindowFieldFits ∧ ∀ buf ∈ s.cb.sender.unsentQueue.head?, match s.sender with
    | .top => s.cb.sender.sendNext ≠ s.cb.sender.unsentSeqNo ∧
      env.cwnd.toNat + env.limitedTransmitCwndIncrease.toNat < 2 ^ 32 ∧
      buf.length % 2 ^ 32 < s.cb.sender.sendWindow.toNat ∧
      s.cb.PieceGoes buf (min s.cb.sender.sendWindow.toNat s.cb.sender.mss)
    | .awaiting (.probe _) => buf ≠ []
    | .awaiting (.segment _ winSz sentData effectiveCwnd) =>
      s.cb.PieceGoes buf (min (min (winSz - sentData) s.cb.sender.mss) (effectiveCwnd - sentData))
    | .probing _ _ _ => False

end Connection

section

variable {cb : ControlBlock} {buf : Buffer} {queue : List Buffer} {sendNext : SeqNumber} {mac : MacAddress} {env : Env}

theorem popUnsent_cons {s : Sender} (hq : s.unsentQueue = buf :: queue) (maxSize : Nat) :
    ∃ doPush, s.popUnsent maxSize = some (some ((buf.take maxSize, doPush),
      { s with unsentQueue := if buf.length ≤ maxSize then queue else buf.drop maxSize :: queue })) := by
  unfold Sender.popUnsent
  rw [hq]
  by_cases hlong : buf.length > maxSize
  · have hrest : adjust buf maxSize = some (buf.drop maxSize) := adjust_of_le (by omega)
    have hfirst : trim buf (buf.length - maxSize) = some (buf.take maxSize) := by
      rw [trim_of_le (by omega), Nat.sub_sub_self (by omega)]
    have hle : ¬buf.length ≤ maxSize := by omega
    exact ⟨false, by simp [hlong, hrest, hfirst, hle]⟩
  · have hle : buf.length ≤ maxSize := by omega
    exact ⟨true, by simp [hlong, hle, List.take_of_length_le hle]⟩

theorem pieceGoes_iff {maxSize : Nat} :
    cb.PieceGoes buf maxSize ↔ (buf.take maxSize).length ≠ 0 ∨ cb.userIsDoneSending = true := by
  rw [PieceGoes, ← List.length_eq_zero_iff]
  exact Decidable.imp_iff_not_or

theorem sendUnsent_isSome_iff (hq : cb.sender.unsentQueue = buf :: queue) {maxSize : Nat} :
    (cb.sendUnsent sendNext maxSize mac env).isSome = true ↔ cb.WindowFieldFits ∧ cb.PieceGoes buf maxSize := by
  obtain ⟨doPush, hpop⟩ := popUnsent_cons hq maxSize
  have hheader := @tcpHeader_isSome_iff { cb with sender := { cb.sender with
    unsentQueue := if buf.length ≤ maxSize then queue else buf.drop maxSize :: queue } }
  unfold sendUnsent
  rw [hpop, pieceGoes_iff]
  simp only [Option.bind_eq_bind, Option.bind_some]
  cases hmade : ControlBlock.tcpHeader { cb with sender := { cb.sender with
    unsentQueue := if buf.length ≤ maxSize then queue else buf.drop maxSize :: queue } } with
  | none =>
    rw [hmade] at hheader
    have hnot : ¬cb.WindowFieldFits := fun hfits => by simpa using hheader.mpr hfits
    simp [hnot]
  | some header =>
    rw [hmade] at hheader
    have hfits : cb.WindowFieldFits := hheader.mp rfl
    by_cases hgoes : (buf.take maxSize).length ≠ 0 ∨ cb.userIsDoneSending = true
    · obtain ⟨cb₁, hemit⟩ := Option.isSome_iff_exists.mp (@emit_isSome { cb with sender := { cb.sender with
          unsentQueue := if buf.length ≤ maxSize then queue else buf.drop maxSize :: queue } } false
        (markHeader { header with seqNum := sendNext } (buf.take maxSize) doPush) (some (buf.take maxSize)) mac
        (by rw [markHeader_ack]; exact (tcpHeader_flags hmade).1))
      simp only [Option.bind_some, debugAssert, hgoes, decide_true, if_true, hemit, hfits, and_self, Option.isSome_some]
    · simp only [Option.bind_some, debugAssert, hgoes, decide_false, Bool.false_eq_true, if_false, Option.bind_none,
        Option.isSome_none, and_false]

theorem sendProbe_isSome_iff (hq : cb.sender.unsentQueue = buf :: queue) {now : Instant} :
    (cb.sendProbe sendNext mac now).isSome = true ↔ buf ≠ [] ∧ cb.WindowFieldFits := by
  unfold sendProbe Sender.popOneUnsentByte
  rw [hq]
  cases buf with
  | nil => simp [adjust]
  | cons byte rest =>
    have hone : adjust (byte :: rest) 1 = some rest := adjust_of_le (by simp)
    have hlast : trim (byte :: rest) ((byte :: rest).length - 1) = some [byte] := by
      rw [trim_of_le (by simp)]
      simp
    have hheader := @tcpHeader_isSome_iff { cb with sender := { cb.sender with
      unsentQueue := rest :: queue
      sendNext := cb.sender.sendNext + SeqNumber.ofNat 1
      unackedQueue := cb.sender.unackedQueue ++ [⟨[byte], some now⟩] } }
    simp only [hone, hlast, Option.bind_eq_bind, Option.bind_some, emitProbe]
    cases hmade : ControlBlock.tcpHeader { cb with sender := { cb.sender with
      unsentQueue := rest :: queue
      sendNext := cb.sender.sendNext + SeqNumber.ofNat 1
      unackedQueue := cb.sender.unackedQueue ++ [⟨[byte], some now⟩] } } with
    | none =>
      rw [hmade] at hheader
      have hnot : ¬cb.WindowFieldFits := fun hfits => by simpa using hheader.mpr hfits
      simp [hnot]
    | some header =>
      rw [hmade] at hheader
      have hfits : cb.WindowFieldFits := hheader.mp rfl
      obtain ⟨cb₁, hemit⟩ := Option.isSome_iff_exists.mp (@emit_isSome { cb with sender := { cb.sender with
          unsentQueue := rest :: queue
          sendNext := cb.sender.sendNext + SeqNumber.ofNat 1
          unackedQueue := cb.sender.unackedQueue ++ [⟨[byte], some now⟩] } } false { header with seqNum := sendNext }
        (some [byte]) mac (tcpHeader_flags hmade).1)
      simp [hemit, hfits]

theorem senderSends_isSome_iff (hq : cb.sender.unsentQueue = buf :: queue) (awaiting : Awaiting) :
    (cb.senderSends mac env awaiting).isSome = true ↔ cb.WindowFieldFits ∧ match awaiting with
      | .probe _ => buf ≠ []
      | .segment _ winSz sentData effectiveCwnd =>
        cb.PieceGoes buf (min (min (winSz - sentData) cb.sender.mss) (effectiveCwnd - sentData)) := by
  cases awaiting with
  | probe sendNext =>
    rw [and_comm]
    exact sendProbe_isSome_iff hq
  | segment => exact sendUnsent_isSome_iff hq

/-- What goes out after the ARP reply has text or is the FIN. -/
theorem senderSends_text {awaiting : Awaiting} {s : EstablishedSocket} (h : cb.senderSends mac env awaiting = some s) :
    ∃ out, s.cb.rt = cb.rt ++ out ∧ ∃ t ∈ out, t.segment.data.isSome = true := by
  obtain ⟨sent, out, hrt, htext, -⟩ : ∃ sent, Emits cb s.cb (some sent) := by
    cases awaiting with
    | probe =>
      obtain ⟨_, _, _, -, -, -, hm⟩ := sendProbe_cases h
      exact ⟨_, hm.emitted⟩
    | segment =>
      obtain ⟨-, _, _, -, -, hm⟩ := sendUnsent_cases h
      exact ⟨_, hm.emitted⟩
  have hmem : sent ∈ out.filterMap Transmission.text := by simp [htext]
  obtain ⟨t, ht, hdata⟩ := List.mem_filterMap.mp hmem
  obtain ⟨data, hdata, -⟩ := Option.map_eq_some_iff.mp hdata
  exact ⟨out, hrt, t, ht, by simp [hdata]⟩

/-- The guard of the loop is open when the first buffer that waits fits both windows. -/
theorem senderReads_opened (hq : cb.sender.unsentQueue = buf :: queue) (hnext : cb.sender.sendNext ≠ cb.sender.unsentSeqNo)
    (hsum : env.cwnd.toNat + env.limitedTransmitCwndIncrease.toNat < 2 ^ 32)
    (hroom : (cb.sender.sendNext - cb.sender.sendUnacked).toNat + buf.length % 2 ^ 32 < cb.sender.sendWindow.toNat)
    (hcwnd : (cb.sender.sendNext - cb.sender.sendUnacked).toNat + cb.sender.mss % 2 ^ 32 <
      env.cwnd.toNat + env.limitedTransmitCwndIncrease.toNat) :
    cb.senderReads env = some (some (.segment cb.sender.sendNext cb.sender.sendWindow.toNat
      (cb.sender.sendNext - cb.sender.sendUnacked).toNat (env.cwnd.toNat + env.limitedTransmitCwndIncrease.toNat))) := by
  have hlimit := cb.sender.sendWindow.toNat_lt
  have hopen : cb.sender.sendWindow ≠ 0 := by
    intro hzero
    rw [hzero] at hroom
    simp at hroom
  have hneeded : (cb.sender.sendNext - cb.sender.sendUnacked).toNat + buf.length % 2 ^ 32 < 2 ^ 32 := by omega
  unfold senderReads
  rw [if_neg hnext, if_neg hopen, addU32_of_lt hsum, Option.bind_eq_bind, Option.bind_some, Sender.topSizeUnsent, hq]
  dsimp only [List.head?_cons, Option.map_some, Option.bind_eq_bind, Option.bind_some]
  rw [addU32_of_lt hneeded, Option.bind_some, if_neg]
  omega

end

namespace Connection

section

variable {s : EstablishedSocket} {r : SocketRun} {env : Env} {buf : Buffer} {queue : List Buffer}

theorem Idle.nothingOut (h : Coherent s) (hi : Idle s env) :
    (s.cb.sender.sendNext - s.cb.sender.sendUnacked).toNat = 0 := by
  have hnone : s.cb.sender.outbox.inFlight = [] := by simp [Sender.outbox, hi.unackedQueue]
  have hout := h.counts.outstanding (by rw [hnone, seqTotal_nil]; omega)
  rw [hnone] at hout
  exact hout

/-- With the link address known a turn sends what the sender has read. -/
theorem background_sends {awaiting : Awaiting} {mac : MacAddress} (hread : HasRead s env awaiting)
    (harp : env.arp = some mac) : s.background env = s.cb.senderSends mac env awaiting := by
  cases hread with
  | before htask =>
    rw [EstablishedSocket.background, htask]
    dsimp only
    rw [senderQueries, harp]
  | closed htop hsent hwin =>
    rw [EstablishedSocket.background, htop, senderReads, if_neg hsent, if_pos hwin]
    dsimp only [Option.bind_eq_bind, Option.bind_some]
    rw [senderQueries, harp]
  | opened htop hsent _ hsum hq hroom hcwnd =>
    rw [EstablishedSocket.background, htop, senderReads_opened hq hsent hsum hroom hcwnd]
    dsimp only [Option.bind_eq_bind, Option.bind_some]
    rw [senderQueries, harp]

/-- A turn sends exactly if the sender has read what it sends by, and that can be made. -/
theorem transmits_iff_hasRead {mac : MacAddress} (harp : env.arp = some mac)
    (hq : s.cb.sender.unsentQueue = buf :: queue) :
    Transmits s env ↔ ∃ awaiting, HasRead s env awaiting ∧ s.cb.WindowFieldFits ∧ match awaiting with
      | .probe _ => buf ≠ []
      | .segment _ winSz sentData effectiveCwnd =>
        s.cb.PieceGoes buf (min (min (winSz - sentData) s.cb.sender.mss) (effectiveCwnd - sentData)) := by
  have hmade : ∀ {awaiting s'}, HasRead s env awaiting → s.background env = some s' →
      (s.cb.senderSends mac env awaiting).isSome = true := by
    intro awaiting s' hread hs
    rw [← background_sends hread harp, hs]
    rfl
  constructor
  · rintro ⟨s', out, hs, hrt, htext⟩
    have hsilent : s'.cb.rt ≠ s.cb.rt := by
      intro hsame
      have hnil : out = [] := by simpa [hsame] using hrt
      simp [hnil] at htext
    cases background_turn hs with
    | idle _ h => exact absurd (by rw [h]) hsilent
    | awaits _ _ h => exact absurd (by rw [h]) hsilent
    | probe hread => exact ⟨_, hread, (senderSends_isSome_iff hq _).mp (hmade hread hs)⟩
    | segment hread => exact ⟨_, hread, (senderSends_isSome_iff hq _).mp (hmade hread hs)⟩
  · rintro ⟨awaiting, hread, hcan⟩
    obtain ⟨s', hs⟩ := Option.isSome_iff_exists.mp ((@senderSends_isSome_iff _ _ _ mac env hq awaiting).mpr hcan)
    obtain ⟨out, hrt, htext⟩ := senderSends_text hs
    exact ⟨s', out, (background_sends hread harp).trans hs, hrt, htext⟩

/-- In a state with text to send, nothing on its way and both windows open a turn of the sender sends something exactly
if the sender does not repeat a probe, the first buffer that waits is shorter than the send window, and a first piece
and a header can be made. -/
theorem Idle.transmits_exactly (h : Coherent s) (hi : Idle s env) : Transmits s env ↔ CanTransmit s env := by
  obtain ⟨mac, harp⟩ := Option.isSome_iff_exists.mp hi.arp
  obtain ⟨buf, queue, hq⟩ : ∃ buf queue, s.cb.sender.unsentQueue = buf :: queue := by
    cases hq : s.cb.sender.unsentQueue with
    | nil => exact absurd (by simp [hq]) hi.unsent
    | cons buf queue => exact ⟨buf, queue, rfl⟩
  rw [transmits_iff_hasRead harp hq, CanTransmit, hq]
  simp only [List.head?_cons, Option.mem_some_iff, forall_eq']
  cases htask : s.sender with
  | awaiting waits =>
    constructor
    · rintro ⟨awaiting, hread, hcan⟩
      cases hread with
      | before hsame =>
        cases htask.symm.trans hsame
        cases waits <;> exact hcan
      | closed htop => cases htask.symm.trans htop
      | opened htop => cases htask.symm.trans htop
    · intro hcan
      exact ⟨waits, .before htask, by cases waits <;> exact hcan⟩
  | probing piece sendNext mac' =>
    simp only [and_false, iff_false]
    rintro ⟨awaiting, hread, -⟩
    exact hread.not_probing htask
  | top =>
    have hnothing := hi.nothingOut h
    have hcwnd := hi.cwnd
    have hmod := Nat.mod_le s.cb.sender.mss (2 ^ 32)
    have hsize : min (min (s.cb.sender.sendWindow.toNat - 0) s.cb.sender.mss)
        (env.cwnd.toNat + env.limitedTransmitCwndIncrease.toNat - 0) =
          min s.cb.sender.sendWindow.toNat s.cb.sender.mss := by omega
    constructor
    · rintro ⟨awaiting, hread, hfits, hpiece⟩
      cases hread with
      | before hsame => cases htask.symm.trans hsame
      | closed _ _ hwin => exact absurd hwin hi.window
      | opened _ hnext _ hsum hq' hroom _ =>
        cases (List.cons.inj (hq'.symm.trans hq)).1
        simp only [hnothing, hsize] at hpiece
        rw [hnothing, Nat.zero_add] at hroom
        exact ⟨hfits, hnext, hsum, hroom, hpiece⟩
    · rintro ⟨hfits, hnext, hsum, hroom, hpiece⟩
      refine ⟨_, .opened htask hnext hi.window hsum hq (by omega) (by omega), hfits, ?_⟩
      simp only [hnothing, hsize]
      exact hpiece

instance (s : EstablishedSocket) (env : Env) : Decidable (CanTransmit s env) :=
  have : DecidablePred fun buf : Buffer => match s.sender with
      | .top => s.cb.sender.sendNext ≠ s.cb.sender.unsentSeqNo ∧
        env.cwnd.toNat + env.limitedTransmitCwndIncrease.toNat < 2 ^ 32 ∧
        buf.length % 2 ^ 32 < s.cb.sender.sendWindow.toNat ∧
        s.cb.PieceGoes buf (min s.cb.sender.sendWindow.toNat s.cb.sender.mss)
      | .awaiting (.probe _) => buf ≠ []
      | .awaiting (.segment _ winSz sentData effectiveCwnd) =>
        s.cb.PieceGoes buf (min (min (winSz - sentData) s.cb.sender.mss) (effectiveCwnd - sentData))
      | .probing _ _ _ => False := by
    intro buf
    cases s.sender with
    | top => infer_instance
    | awaiting awaiting => cases awaiting <;> infer_instance
    | probing => infer_instance
  inferInstanceAs (Decidable (_ ∧ ∀ buf ∈ s.cb.sender.unsentQueue.head?, _))

/-- A block whose peer offers a window of eight bytes. -/
def narrowWindow : ControlBlock :=
  .new ⟨⟨10, 0, 1, 8⟩, 10000⟩ ⟨⟨10, 0, 1, 7⟩, 50000⟩ ⟨40⟩ 0 65535 0 ⟨7⟩ 8 0 1460

theorem narrowWindow_opened : Opened narrowWindow :=
  opened_new (by decide) (by decide) (by decide) (by decide) (by decide)

end

end Connection

end Capybara
