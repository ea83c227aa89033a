import Capybara.SenderProgress

namespace Capybara

open ControlBlock Runs

def Awaiting.isProbe : Awaiting → Bool
  | .probe _ => true
  | .segment _ _ _ _ => false

/-- The congestion window with what limited transmit adds to it. -/
def Env.effectiveCwnd (env : Env) : Nat := env.cwnd.toNat + env.limitedTransmitCwndIncrease.toNat

/-- A segment that is at most one MSS long and ends inside both windows; a window probe need not fit the send window. -/
structure WithinLimits (s : Sender) (effectiveCwnd : Nat) (probing : Bool) (sent : SeqNumber × Buffer) : Prop where
  size : sent.2.length ≤ s.mss
  window : probing = false → (sent.1 - s.sendUnacked).toNat + sequenceLength sent.2 ≤ s.sendWindow.toNat
  cwnd : (sent.1 - s.sendUnacked).toNat + sequenceLength sent.2 ≤ effectiveCwnd

namespace ControlBlock

/-- Every segment with text or FIN that went out between two states meets the limits. -/
def SendsWithin (limits : SeqNumber × Buffer → Prop) (cb cb' : ControlBlock) : Prop :=
  ∃ out : List Transmission, cb'.rt = cb.rt ++ out ∧ ∀ sent ∈ out.filterMap Transmission.text, limits sent

/-- What `send` computes to be in flight fits its type, and what it sends meets the limits. -/
def SendLimited (cb : ControlBlock) (buf : Buffer) (env : Env) : Prop :=
  (cb.userIsDoneSending = false → buf.length < 2 ^ 32 → cb.sender.unsentQueue = [] →
    (cb.sender.sendNext - cb.sender.sendUnacked).toNat + buf.length < 2 ^ 32) ∧
  ∀ result cb', cb.send buf env = some (result, cb') →
    SendsWithin (WithinLimits cb.sender env.effectiveCwnd false) cb cb'

/-- A buffer that goes out at once is no longer than one MSS, and the end-of-send marker finds both windows open. -/
def CanSend (cb : ControlBlock) (buf : Buffer) (env : Env) : Prop :=
  cb.userIsDoneSending = false → buf.length < 2 ^ 32 → cb.sender.unsentQueue = [] →
    (cb.sender.sendNext - cb.sender.sendUnacked).toNat + buf.length < 2 ^ 32 ∧
      (SendsNow cb buf env → env.effectiveCwnd < 2 ^ 32 → cb.WindowFieldFits → buf.length ≤ cb.sender.mss ∧
        (buf = [] → (cb.sender.sendNext - cb.sender.sendUnacked).toNat <
          min cb.sender.sendWindow.toNat env.effectiveCwnd))

instance (cb : ControlBlock) (buf : Buffer) (env : Env) : Decidable (cb.CanSend buf env) :=
  inferInstanceAs (Decidable (_ → _))

/-- A window probe is no longer than one MSS and ends inside the congestion window. -/
def ProbeFits (cb : ControlBlock) (sendNext : SeqNumber) (env : Env) : Prop :=
  1 ≤ cb.sender.mss ∧ (sendNext - cb.sender.sendUnacked).toNat + 1 ≤ env.effectiveCwnd

instance (cb : ControlBlock) (sendNext : SeqNumber) (env : Env) : Decidable (cb.ProbeFits sendNext env) :=
  inferInstanceAs (Decidable (_ ∧ _))

/-- What waits for the link address ends inside the windows as they are now. -/
def StillFits (cb : ControlBlock) (env : Env) (buf : Buffer) : Awaiting → Prop
  | .probe sendNext => buf ≠ [] → cb.ProbeFits sendNext env
  | .segment sendNext winSz sentData effectiveCwnd =>
    cb.PieceGoes buf (min (min (winSz - sentData) cb.sender.mss) (effectiveCwnd - sentData)) →
      (sendNext - cb.sender.sendUnacked).toNat + sequenceLength
        (buf.take (min (min (winSz - sentData) cb.sender.mss) (effectiveCwnd - sentData))) ≤
          min cb.sender.sendWindow.toNat env.effectiveCwnd

instance (cb : ControlBlock) (env : Env) (buf : Buffer) : (awaiting : Awaiting) → Decidable (cb.StillFits env buf awaiting)
  | .probe _ => inferInstanceAs (Decidable (_ → _))
  | .segment _ _ _ _ => inferInstanceAs (Decidable (_ → _))

end ControlBlock

namespace Connection

/-- Whether a turn of the background sender can only be a window probe. -/
def probes (s : EstablishedSocket) : Bool :=
  match s.sender with
  | .top => s.cb.sender.sendWindow == 0
  | .awaiting awaiting => awaiting.isProbe
  | .probing _ _ _ => false

/-- What the background sender computes to be in flight fits its type, and what it sends meets the limits. -/
def TurnLimited (s : EstablishedSocket) (env : Env) : Prop :=
  (s.sender = .top → s.cb.sender.sendNext ≠ s.cb.sender.unsentSeqNo → s.cb.sender.sendWindow ≠ 0 →
    env.effectiveCwnd < 2 ^ 32 → ∀ buf ∈ s.cb.sender.unsentQueue.head?,
      (s.cb.sender.sendNext - s.cb.sender.sendUnacked).toNat + buf.length % 2 ^ 32 < 2 ^ 32) ∧
  ∀ s', s.background env = some s' → SendsWithin (WithinLimits s.cb.sender env.effectiveCwnd (probes s)) s.cb s'.cb

/-- What was computed before the wait for the link address still fits, a window probe fits the congestion window, and
what is in flight with the first buffer that waits stays below 2^32. -/
def CanTurn (s : EstablishedSocket) (env : Env) : Prop :=
  ∀ buf ∈ s.cb.sender.unsentQueue.head?, match s.sender with
    | .top => s.cb.sender.sendNext ≠ s.cb.sender.unsentSeqNo →
      if s.cb.sender.sendWindow = 0 then
        env.arp.isSome = true → s.cb.WindowFieldFits → s.cb.StillFits env buf (.probe s.cb.sender.sendNext)
      else env.effectiveCwnd < 2 ^ 32 →
        (s.cb.sender.sendNext - s.cb.sender.sendUnacked).toNat + buf.length % 2 ^ 32 < 2 ^ 32
    | .awaiting awaiting => env.arp.isSome = true → s.cb.WindowFieldFits → s.cb.StillFits env buf awaiting
    | .probing _ _ _ => True

instance (s : EstablishedSocket) (env : Env) : Decidable (CanTurn s env) :=
  have : DecidablePred fun buf : Buffer => match s.sender with
    | .top => s.cb.sender.sendNext ≠ s.cb.sender.unsentSeqNo →
      if s.cb.sender.sendWindow = 0 then
        env.arp.isSome = true → s.cb.WindowFieldFits → s.cb.StillFits env buf (.probe s.cb.sender.sendNext)
      else env.effectiveCwnd < 2 ^ 32 →
        (s.cb.sender.sendNext - s.cb.sender.sendUnacked).toNat + buf.length % 2 ^ 32 < 2 ^ 32
    | .awaiting awaiting => env.arp.isSome = true → s.cb.WindowFieldFits → s.cb.StillFits env buf awaiting
    | .probing _ _ _ => True :=
    fun _ => match s.sender with
      | .top => inferInstanceAs (Decidable (_ → _))
      | .awaiting _ => inferInstanceAs (Decidable (_ → _))
      | .probing _ _ _ => inferInstanceAs (Decidable True)
  inferInstanceAs (Decidable (∀ buf ∈ s.cb.sender.unsentQueue.head?, _))

end Connection

section

variable {cb cb' : ControlBlock} {buf : Buffer} {env : Env} {sent : Option (SeqNumber × Buffer)} {mac : MacAddress}
  {limits : SeqNumber × Buffer → Prop}

theorem sendsWithin_iff (h : Emits cb cb' sent) : SendsWithin limits cb cb' ↔ ∀ p ∈ sent, limits p := by
  obtain ⟨out, hrt, htext, -⟩ := h
  constructor
  · rintro ⟨out', hrt', hall⟩ p hp
    have hout : out' = out := List.append_cancel_left (hrt'.symm.trans hrt)
    rw [hout, htext] at hall
    exact hall p (Option.mem_toList.mpr hp)
  · intro hall
    refine ⟨out, hrt, ?_⟩
    rw [htext]
    exact fun p hp => hall p (Option.mem_toList.mp hp)

theorem sendsWithin_silent (hrt : cb'.rt = cb.rt) : SendsWithin limits cb cb' := by
  refine (sendsWithin_iff (.nothing hrt)).mpr ?_
  simp

/-- A buffer that fits both windows at once meets the limits if it is short enough. -/
theorem withinLimits_iff (hnow : SendsNow cb buf env) :
    WithinLimits cb.sender env.effectiveCwnd false (cb.sender.sendNext, buf) ↔ buf.length ≤ cb.sender.mss ∧
      (buf = [] → (cb.sender.sendNext - cb.sender.sendUnacked).toNat <
        min cb.sender.sendWindow.toNat env.effectiveCwnd) := by
  obtain ⟨-, -, -, hroom⟩ := hnow
  have hlen := @List.length_eq_zero_iff _ buf
  constructor
  · rintro ⟨hsize, hwindow, hcwnd⟩
    refine ⟨hsize, ?_⟩
    rintro rfl
    have hwindow := hwindow rfl
    simp only [sequenceLength, List.length_nil, if_true] at hwindow hcwnd
    omega
  · rintro ⟨hsize, hmarker⟩
    change _ ≤ min _ env.effectiveCwnd at hroom
    have hends : (cb.sender.sendNext - cb.sender.sendUnacked).toNat + sequenceLength buf ≤
        min cb.sender.sendWindow.toNat env.effectiveCwnd := by
      unfold sequenceLength
      split
      next hempty =>
        have hmarker := hmarker (hlen.mp hempty)
        omega
      next => exact hroom
    exact ⟨hsize, fun _ => by dsimp only; omega, by dsimp only; omega⟩

theorem send_immediate (hopen : cb.userIsDoneSending = false) (hlen : buf.length < 2 ^ 32) :
    cb.send buf env = (cb.sendImmediate buf env).bind fun immediate => match immediate with
      | some cb => some (.ok (), cb)
      | none =>
        if cb.sender.unsentQueue.length > unsentQueueCutoff then
          some (.error ⟨.EBUSY, "too many packets to send"⟩, cb)
        else some (.ok (), { cb with sender := { cb.sender with
          unsentQueue := cb.sender.unsentQueue ++ [buf]
          unsentSeqNo := cb.sender.unsentSeqNo + SeqNumber.ofNat buf.length } }) := by
  unfold send
  rw [if_neg (by simp [hopen]), if_neg (by omega)]
  rfl

theorem sendLimited_iff (cb : ControlBlock) (buf : Buffer) (env : Env) : cb.SendLimited buf env ↔ cb.CanSend buf env := by
  constructor
  · rintro ⟨hsum, hsend⟩ hopen hlen hempty
    refine ⟨hsum hopen hlen hempty, fun hnow hcwnd hfits => ?_⟩
    obtain ⟨result, himm⟩ := Option.isSome_iff_exists.mp
      ((sendImmediate_isSome_iff hempty).mpr ⟨hsum hopen hlen hempty, hcwnd, fun _ => hfits⟩)
    rcases sendImmediate_cases himm with ⟨-, hnot⟩ | ⟨cb₁, rfl, -, hm⟩
    · exact absurd hnow hnot
    · have hsent := hsend (.ok ()) cb₁ (by rw [send_immediate hopen hlen, himm]; rfl)
      exact (withinLimits_iff hnow).mp ((sendsWithin_iff hm.emitted).mp hsent _ rfl)
  · intro hcan
    refine ⟨fun hopen hlen hempty => (hcan hopen hlen hempty).1, fun result cb₁ hsend => ?_⟩
    rcases send_cases hsend with ⟨-, rfl⟩ | ⟨-, hopen, ⟨hnow, hm⟩ | ⟨-, hm⟩⟩
    · exact sendsWithin_silent rfl
    · have hlen : buf.length < 2 ^ 32 := by
        have hroom := hnow.2.2.2
        have hwindow := cb.sender.sendWindow.toNat_lt
        omega
      have himm : (cb.sendImmediate buf env).isSome = true := by
        rw [send_immediate hopen hlen] at hsend
        obtain ⟨immediate, himm, -⟩ := Option.bind_eq_some_iff.mp hsend
        rw [himm]
        rfl
      obtain ⟨-, hcwnd, hfits⟩ := (sendImmediate_isSome_iff hnow.1).mp himm
      have hmeets := (hcan hopen hlen hnow.1).2 hnow hcwnd (hfits hnow)
      refine (sendsWithin_iff hm.emitted).mpr ?_
      rintro p ⟨⟩
      exact (withinLimits_iff hnow).mpr hmeets
    · exact (sendsWithin_iff hm.emitted).mpr (by simp)

/-- What goes out after the ARP reply meets the limits exactly if it still fits. -/
theorem senderSends_within (cb : ControlBlock) (mac : MacAddress) (env : Env) (awaiting : Awaiting) :
    (∀ s, cb.senderSends mac env awaiting = some s → SendsWithin (WithinLimits cb.sender env.effectiveCwnd awaiting.isProbe)
      cb s.cb) ↔
    ∀ buf ∈ cb.sender.unsentQueue.head?, cb.WindowFieldFits → cb.StillFits env buf awaiting := by
  constructor
  · intro hall buf hbuf hfits
    obtain ⟨queue, hq⟩ := List.head?_eq_some_iff.mp hbuf
    have hiff := @senderSends_isSome_iff cb buf queue mac env hq awaiting
    cases awaiting with
    | probe sendNext =>
      intro hne
      obtain ⟨s, hs⟩ := Option.isSome_iff_exists.mp (hiff.mpr ⟨hfits, hne⟩)
      obtain ⟨_, _, _, -, -, -, hm⟩ := sendProbe_cases hs
      have hmeets := (sendsWithin_iff hm.emitted).mp (hall s hs) _ rfl
      exact ⟨hmeets.size, hmeets.cwnd⟩
    | segment sendNext winSz sentData effectiveCwnd =>
      intro hgoes
      obtain ⟨s, hs⟩ := Option.isSome_iff_exists.mp (hiff.mpr ⟨hfits, hgoes⟩)
      obtain ⟨-, _, _, hq', -, hm⟩ := sendUnsent_cases hs
      cases (List.cons.inj (hq'.symm.trans hq)).1
      have hmeets := (sendsWithin_iff hm.emitted).mp (hall s hs) _ rfl
      exact Nat.le_min.mpr ⟨hmeets.window rfl, hmeets.cwnd⟩
  · intro hfit s hs
    cases awaiting with
    | probe sendNext =>
      obtain ⟨byte, rest, queue, hq, -, -, hm⟩ := sendProbe_cases hs
      obtain ⟨hfits, hne⟩ := (senderSends_isSome_iff hq _).mp (by rw [hs]; rfl)
      obtain ⟨hsize, hcwnd⟩ := hfit (byte :: rest) (by rw [hq]; rfl) hfits hne
      refine (sendsWithin_iff hm.emitted).mpr ?_
      rintro p ⟨⟩
      exact ⟨hsize, fun hno => (by cases hno), hcwnd⟩
    | segment sendNext winSz sentData effectiveCwnd =>
      obtain ⟨-, buf, queue, hq, -, hm⟩ := sendUnsent_cases hs
      obtain ⟨hfits, hgoes⟩ := (senderSends_isSome_iff hq _).mp (by rw [hs]; rfl)
      obtain ⟨hwindow, hcwnd⟩ := Nat.le_min.mp (hfit buf (by rw [hq]; rfl) hfits hgoes)
      refine (sendsWithin_iff hm.emitted).mpr ?_
      rintro p ⟨⟩
      refine ⟨?_, fun _ => hwindow, hcwnd⟩
      dsimp only
      rw [List.length_take]
      omega

end

namespace Connection

section

variable {s : EstablishedSocket} {env : Env}

/-- A turn of a sender that holds `awaiting` meets the limits exactly if that still fits. -/
theorem background_within {awaiting : Awaiting} (hread : HasRead s env awaiting) :
    (∀ s', s.background env = some s' →
      SendsWithin (WithinLimits s.cb.sender env.effectiveCwnd awaiting.isProbe) s.cb s'.cb) ↔
    ∀ buf ∈ s.cb.sender.unsentQueue.head?, env.arp.isSome = true → s.cb.WindowFieldFits →
      s.cb.StillFits env buf awaiting := by
  cases harp : env.arp with
  | some mac =>
    rw [background_sends hread harp, senderSends_within]
    simp only [Option.isSome_some, forall_const]
  | none =>
    constructor
    · intro _ _ _ hsome
      cases hsome
    · intro _ s' hs
      cases background_turn hs with
      | idle hnone => exact absurd hread (hnone awaiting)
      | awaits _ _ h => exact sendsWithin_silent (by rw [h])
      | probe _ harp' => cases harp.symm.trans harp'
      | segment _ harp' => cases harp.symm.trans harp'

/-- A turn of a sender that holds nothing sends nothing. -/
theorem background_idle {s' : EstablishedSocket} {limits : SeqNumber × Buffer → Prop}
    (hnone : ∀ awaiting, ¬HasRead s env awaiting) (hs : s.background env = some s') : SendsWithin limits s.cb s'.cb := by
  cases background_turn hs with
  | idle _ h => exact sendsWithin_silent (by rw [h])
  | awaits hread => exact absurd hread (hnone _)
  | probe hread => exact absurd hread (hnone _)
  | segment hread => exact absurd hread (hnone _)

/-- A segment that goes out with the values just read meets the limits. -/
theorem opened_within {s' : EstablishedSocket} (htop : s.sender = .top) (hopen : s.cb.sender.sendWindow ≠ 0)
    (hs : s.background env = some s') : SendsWithin (WithinLimits s.cb.sender env.effectiveCwnd false) s.cb s'.cb := by
  by_cases hread : ∃ awaiting, HasRead s env awaiting
  · obtain ⟨awaiting, hread⟩ := hread
    have hiff := background_within hread
    cases hread with
    | before htask => cases htop.symm.trans htask
    | closed _ _ hzero => exact absurd hzero hopen
    | opened _ _ _ _ _ hroom hcwnd =>
      refine hiff.mpr (fun buf _ _ _ _ => ?_) s' hs
      have hlen := @List.length_take _ (min (min (s.cb.sender.sendWindow.toNat -
        (s.cb.sender.sendNext - s.cb.sender.sendUnacked).toNat) s.cb.sender.mss) (env.cwnd.toNat +
          env.limitedTransmitCwndIncrease.toNat - (s.cb.sender.sendNext - s.cb.sender.sendUnacked).toNat)) buf
      unfold sequenceLength Env.effectiveCwnd
      split <;> omega
  · exact background_idle (fun awaiting h => hread ⟨awaiting, h⟩) hs

theorem turnLimited_iff (s : EstablishedSocket) (env : Env) : TurnLimited s env ↔ CanTurn s env := by
  cases htask : s.sender with
  | awaiting awaiting =>
    have hprobes : probes s = awaiting.isProbe := by rw [probes, htask]
    rw [TurnLimited, CanTurn, hprobes, htask, background_within (.before htask), and_iff_right (by intro htop; cases htop)]
  | probing buf sendNext mac =>
    have hnone : ∀ awaiting, ¬HasRead s env awaiting := fun _ hread => hread.not_probing htask
    rw [TurnLimited, CanTurn, htask]
    exact ⟨fun _ _ _ => trivial, fun _ => ⟨fun htop => (by cases htop), fun s' hs => background_idle hnone hs⟩⟩
  | top =>
    rw [TurnLimited, CanTurn, htask]
    by_cases hsent : s.cb.sender.sendNext = s.cb.sender.unsentSeqNo
    · have hnone : ∀ awaiting, ¬HasRead s env awaiting := by
        intro awaiting hread
        cases hread with
        | before hsame => cases htask.symm.trans hsame
        | closed _ hne => exact hne hsent
        | opened _ hne => exact hne hsent
      exact ⟨fun _ _ _ hne => absurd hsent hne, fun _ => ⟨fun _ hne => absurd hsent hne, fun s' hs => background_idle hnone hs⟩⟩
    · by_cases hzero : s.cb.sender.sendWindow = 0
      · have hprobes : probes s = true := by rw [probes, htask, hzero]; rfl
        have hread : HasRead s env (.probe s.cb.sender.sendNext) := .closed htask hsent hzero
        have hiff := background_within hread
        simp only [hsent, hzero, if_true, ne_eq, not_true_eq_false, not_false_eq_true, forall_const, hprobes,
          false_implies, true_and]
        exact hiff
      · have hprobes : probes s = false := by simp [probes, htask, hzero]
        simp only [hsent, hzero, if_false, ne_eq, not_false_eq_true, forall_const, hprobes]
        constructor
        · rintro ⟨hsum, -⟩ buf hbuf hcwnd
          exact hsum hcwnd buf hbuf
        · intro hsum
          exact ⟨fun hcwnd buf hbuf => hsum buf hbuf hcwnd, fun s' hs => opened_within htask hzero hs⟩

/-- Both paths keep to the limits exactly where each can. -/
theorem segmentLimits_iff (s : EstablishedSocket) (buf : Buffer) (env : Env) :
    (s.cb.SendLimited buf env ↔ s.cb.CanSend buf env) ∧ (TurnLimited s env ↔ CanTurn s env) :=
  ⟨sendLimited_iff s.cb buf env, turnLimited_iff s env⟩

end

/-- A buffer longer than one MSS goes out at once, whole. -/
theorem segmentLimits_long : Opened smallWindow ∧ smallWindow.sender.mss = 1460 ∧
    ¬smallWindow.SendLimited (.replicate 2000 1) linkEnv := by
  refine ⟨smallWindow_opened, rfl, fun h => ?_⟩
  have hcan := (sendLimited_iff _ _ _).mp h rfl (by rw [List.length_replicate]; omega) rfl
  have hlen := (hcan.2 (by decide +kernel) (by decide) (by decide)).1
  rw [List.length_replicate] at hlen
  exact absurd hlen (by decide)

end Connection

end Capybara
