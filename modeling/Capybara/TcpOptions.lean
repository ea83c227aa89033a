import Capybara.TcpHeader
import Capybara.Lib.Wire

namespace Capybara

open Wire

def maxTcpOptions : Nat := 5

def SelectiveAcknowlegement.zero : SelectiveAcknowlegement := ⟨.ofNat 0, .ofNat 0⟩

def SelectiveAcknowlegement.bytes (sack : SelectiveAcknowlegement) : Buffer :=
  be32 sack.begin.value ++ be32 sack.end_.value

namespace TcpOption

def computeSize : TcpOption → Nat
  | noOperation => 1
  | maximumSegmentSize _ => 4
  | windowScale _ => 3
  | selectiveAcknowlegementPermitted => 2
  | selectiveAcknowlegement numSacks _ => 2 + 8 * numSacks
  | timestamp _ _ => 10

/-- The layout of an option on the wire. -/
def bytes : TcpOption → Buffer
  | noOperation => [1]
  | maximumSegmentSize mss => [2, 4] ++ be16 mss
  | windowScale scale => [3, 3, scale]
  | selectiveAcknowlegementPermitted => [4, 2]
  | selectiveAcknowlegement numSacks sacks =>
    [5, UInt8.ofNat (2 + 8 * numSacks)] ++ (sacks.take numSacks).flatMap SelectiveAcknowlegement.bytes
  | timestamp senderTimestamp echoTimestamp => [8, 10] ++ be32 senderTimestamp ++ be32 echoTimestamp

/-- The index into the array of blocks panics past its end. -/
def serialize : TcpOption → Write
  | selectiveAcknowlegement numSacks sacks =>
    Write.guard (numSacks ≤ sacks.length) (put (selectiveAcknowlegement numSacks sacks).bytes)
  | option => put option.bytes

/-- A SACK option has one to four blocks in use and zeros in the others. -/
def WellFormed : TcpOption → Prop
  | selectiveAcknowlegement numSacks sacks =>
    1 ≤ numSacks ∧ numSacks ≤ 4 ∧ sacks.length = 4 ∧
      sacks.drop numSacks = List.replicate (4 - numSacks) SelectiveAcknowlegement.zero
  | _ => True

instance : (option : TcpOption) → Decidable option.WellFormed
  | selectiveAcknowlegement numSacks sacks =>
    inferInstanceAs (Decidable (1 ≤ numSacks ∧ numSacks ≤ 4 ∧ sacks.length = 4 ∧
      sacks.drop numSacks = List.replicate (4 - numSacks) SelectiveAcknowlegement.zero))
  | noOperation | maximumSegmentSize _ | windowScale _ | selectiveAcknowlegementPermitted | timestamp _ _ =>
    .isTrue trivial

end TcpOption

/-- The end of the cursor is an I/O error. -/
def readIo {α : Type} (r : Read α) : StateT Buffer (Except Fail) α := fun rdr =>
  match r rdr with
  | some result => .ok result
  | none => .error (ioFail "I/O error")

/-- `option_rdr.read_u8()?` with the check that follows. -/
def expectLength (length : UInt8) (cause : String) : StateT Buffer (Except Fail) Unit := do
  let optionLength ← readIo readU8
  (refuse (optionLength ≠ length) ⟨.EBADMSG, cause⟩ : Except Fail Unit)

def readSack : Read SelectiveAcknowlegement := do
  let begin ← readBe32
  let end_ ← readBe32
  return ⟨⟨begin⟩, ⟨end_⟩⟩

/-- The body of the option loop behind the kind byte. -/
def parseOption (optionKind : UInt8) : StateT Buffer (Except Fail) TcpOption :=
  if optionKind = 2 then do
    expectLength 4 "MSS size was not 4"
    let mss ← readIo readBe16
    return .maximumSegmentSize mss
  else if optionKind = 3 then do
    expectLength 3 "window scale size was not 3"
    let windowScale ← readIo readU8
    return .windowScale windowScale
  else if optionKind = 4 then do
    expectLength 2 "SACK permitted size was not 2"
    return .selectiveAcknowlegementPermitted
  else if optionKind = 5 then do
    let optionLength ← readIo readU8
    (refuse (¬(optionLength = 10 ∨ optionLength = 18 ∨ optionLength = 26 ∨ optionLength = 34))
      ⟨.EBADMSG, "invalid SACK size"⟩ : Except Fail Unit)
    let numSacks := (optionLength.toNat - 2) / 8
    let sacks ← readIo (readMany readSack numSacks)
    return .selectiveAcknowlegement numSacks (sacks ++ List.replicate (4 - numSacks) SelectiveAcknowlegement.zero)
  else if optionKind = 8 then do
    expectLength 10 "TCP timestamp size was not 10"
    let senderTimestamp ← readIo readBe32
    let echoTimestamp ← readIo readBe32
    return .timestamp senderTimestamp echoTimestamp
  else (.error ⟨.EBADMSG, "invalid TCP option"⟩ : Except Fail TcpOption)

theorem readIo_eq_ok_iff {α : Type} {r : Read α} {rdr : Buffer} {x : α × Buffer} :
    readIo r rdr = .ok x ↔ r rdr = some x := by
  unfold readIo
  split
  next result hr => simp [hr]
  next hr => simp [hr]

theorem liftExcept_eq_ok_iff {α : Type} {m : Except Fail α} {rdr rest : Buffer} {a : α} :
    (liftM m : StateT Buffer (Except Fail) α) rdr = .ok (a, rest) ↔ m = .ok a ∧ rest = rdr := by
  cases m with
  | error e =>
    show (Except.error e : Except Fail _) = _ ↔ _
    simp
  | ok b =>
    show (Except.ok (b, rdr) : Except Fail _) = _ ↔ _
    simp [eq_comm]

theorem refuse_eq_ok_iff {p : Prop} [Decidable p] {fail : Fail} {u : Unit} : refuse p fail = .ok u ↔ ¬p := by
  unfold refuse
  split
  next h => simp [h]
  next h => simp [h]

theorem expectLength_eq_ok_iff {length : UInt8} {cause : String} {rdr rest : Buffer} {u : Unit} :
    expectLength length cause rdr = .ok (u, rest) ↔ rdr = length :: rest := by
  rw [expectLength, bind_eq_ok_iff]
  constructor
  · rintro ⟨optionLength, rdr', hr, h⟩
    obtain ⟨-, rfl⟩ := (decodes_u8 rdr optionLength rdr').mp (readIo_eq_ok_iff.mp hr)
    obtain ⟨hlength, rfl⟩ := liftExcept_eq_ok_iff.mp h
    rw [Decidable.not_not.mp (refuse_eq_ok_iff.mp hlength)]
    rfl
  · rintro rfl
    exact ⟨length, rest, rfl, liftExcept_eq_ok_iff.mpr ⟨refuse_eq_ok_iff.mpr (fun h => h rfl), rfl⟩⟩

theorem decodes_readSack : Decodes readSack (fun _ => True) SelectiveAcknowlegement.bytes := by
  have h := @Decodes.bind UInt32 UInt32 SelectiveAcknowlegement readBe32 readBe32 _ _ be32 be32 decodes_be32
    decodes_be32 (fun b e => ⟨⟨b⟩, ⟨e⟩⟩) (fun sack => sack.begin.value) (fun sack => sack.end_.value)
    (fun b e => ⟨rfl, rfl⟩) (fun sack => rfl)
  intro buf sack rest
  exact (h buf sack rest).trans (by simp [SelectiveAcknowlegement.bytes])

/-- An option that is a length check and one value. -/
theorem bind_readIo_eq_ok_iff {α : Type} {r : Read α} {p : α → Prop} {enc : α → Bytes} (h : Decodes r p enc)
    {f : α → TcpOption} {rdr rest : Buffer} {option : TcpOption} :
    (readIo r >>= fun a => pure (f a) : StateT Buffer (Except Fail) TcpOption) rdr = .ok (option, rest) ↔
      ∃ a, p a ∧ rdr = enc a ++ rest ∧ option = f a := by
  rw [bind_eq_ok_iff]
  constructor
  · rintro ⟨a, rdr', hr, hf⟩
    obtain ⟨hp, rfl⟩ := (h rdr a rdr').mp (readIo_eq_ok_iff.mp hr)
    obtain ⟨rfl, rfl⟩ := Prod.mk.inj (Except.ok.inj hf)
    exact ⟨a, hp, rfl, rfl⟩
  · rintro ⟨a, hp, rfl, rfl⟩
    exact ⟨a, rest, readIo_eq_ok_iff.mpr ((h _ a rest).mpr ⟨hp, rfl⟩), rfl⟩

theorem sackLength_iff {length : UInt8} {n : Nat} :
    (length = 10 ∨ length = 18 ∨ length = 26 ∨ length = 34) ∧ (length.toNat - 2) / 8 = n ↔
      length = UInt8.ofNat (2 + 8 * n) ∧ 1 ≤ n ∧ n ≤ 4 := by
  constructor
  · rintro ⟨rfl | rfl | rfl | rfl, rfl⟩ <;> decide
  · rintro ⟨rfl, h1, h4⟩
    obtain rfl | rfl | rfl | rfl : n = 1 ∨ n = 2 ∨ n = 3 ∨ n = 4 := by omega
    all_goals decide

/-- What the parser reads as SACK blocks, and what a SACK option holds. -/
theorem sackBlocks_iff {n : Nat} {sacks blocks : List SelectiveAcknowlegement} :
    blocks.length = n ∧ sacks = blocks ++ List.replicate (4 - n) SelectiveAcknowlegement.zero ∧ n ≤ 4 ↔
      blocks = sacks.take n ∧ sacks.length = 4 ∧ n ≤ 4 ∧
        sacks.drop n = List.replicate (4 - n) SelectiveAcknowlegement.zero := by
  constructor
  · rintro ⟨rfl, rfl, h4⟩
    refine ⟨(List.take_left' rfl).symm, ?_, h4, List.drop_left' rfl⟩
    rw [List.length_append, List.length_replicate]
    omega
  · rintro ⟨rfl, hl, h4, hd⟩
    refine ⟨?_, ?_, h4⟩
    · rw [List.length_take, hl]
      omega
    · rw [← hd, List.take_append_drop]

theorem parseOption_sound {optionKind : UInt8} {rdr rest : Buffer} {option : TcpOption}
    (h : parseOption optionKind rdr = .ok (option, rest)) :
    option ≠ .noOperation ∧ option.WellFormed ∧ optionKind :: rdr = option.bytes ++ rest := by
  unfold parseOption at h
  split at h
  next hk =>
    obtain ⟨u, rdr', hl, hv⟩ := bind_eq_ok_iff.mp h
    obtain ⟨mss, -, hm, rfl⟩ := (bind_readIo_eq_ok_iff decodes_be16).mp hv
    rw [expectLength_eq_ok_iff.mp hl, hm, hk]
    exact ⟨fun h => (by cases h), trivial, rfl⟩
  next =>
  split at h
  next hk =>
    obtain ⟨u, rdr', hl, hv⟩ := bind_eq_ok_iff.mp h
    obtain ⟨scale, -, hm, rfl⟩ := (bind_readIo_eq_ok_iff decodes_u8).mp hv
    rw [expectLength_eq_ok_iff.mp hl, hm, hk]
    exact ⟨fun h => (by cases h), trivial, rfl⟩
  next =>
  split at h
  next hk =>
    obtain ⟨u, rdr', hl, hv⟩ := bind_eq_ok_iff.mp h
    obtain ⟨rfl, rfl⟩ := Prod.mk.inj (Except.ok.inj hv)
    rw [expectLength_eq_ok_iff.mp hl, hk]
    exact ⟨fun h => (by cases h), trivial, rfl⟩
  next =>
  split at h
  next hk =>
    obtain ⟨length, rdr', hl, hread⟩ := bind_eq_ok_iff.mp h
    obtain ⟨u, rdr'', hs, hv⟩ := bind_eq_ok_iff.mp hread
    obtain ⟨-, rfl⟩ := (decodes_u8 rdr length rdr').mp (readIo_eq_ok_iff.mp hl)
    obtain ⟨hsize, rfl⟩ := liftExcept_eq_ok_iff.mp hs
    have hlength := Decidable.not_not.mp (refuse_eq_ok_iff.mp hsize)
    obtain ⟨blocks, ⟨hcount, -⟩, rfl, rfl⟩ := (bind_readIo_eq_ok_iff (decodes_readMany decodes_readSack _)).mp hv
    obtain ⟨hbyte, h1, h4⟩ := sackLength_iff.mp ⟨hlength, rfl⟩
    obtain ⟨htake, hfour, -, hzero⟩ := sackBlocks_iff.mp ⟨hcount, rfl, h4⟩
    refine ⟨fun h => (by cases h), ⟨h1, h4, hfour, hzero⟩, ?_⟩
    rw [TcpOption.bytes, ← htake, ← hbyte, hk]
    rfl
  next =>
  split at h
  next hk =>
    obtain ⟨u, rdr', hl, hread⟩ := bind_eq_ok_iff.mp h
    obtain ⟨sender, rdr'', hs, hv⟩ := bind_eq_ok_iff.mp hread
    obtain ⟨-, rfl⟩ := (decodes_be32 rdr' sender rdr'').mp (readIo_eq_ok_iff.mp hs)
    obtain ⟨echo, -, rfl, rfl⟩ := (bind_readIo_eq_ok_iff decodes_be32).mp hv
    rw [expectLength_eq_ok_iff.mp hl, hk]
    exact ⟨fun h => (by cases h), trivial, rfl⟩
  next => cases h

theorem parseOption_bytes {option : TcpOption} (hn : option ≠ .noOperation) (hw : option.WellFormed) :
    ∃ optionKind rdr, option.bytes = optionKind :: rdr ∧ optionKind ≠ 0 ∧ optionKind ≠ 1 ∧
      ∀ rest, parseOption optionKind (rdr ++ rest) = .ok (option, rest) := by
  cases option with
  | noOperation => exact absurd rfl hn
  | maximumSegmentSize mss =>
    refine ⟨2, 4 :: be16 mss, rfl, by decide, by decide, fun rest => ?_⟩
    exact bind_eq_ok_iff.mpr ⟨(), be16 mss ++ rest, expectLength_eq_ok_iff.mpr rfl,
      (bind_readIo_eq_ok_iff decodes_be16).mpr ⟨mss, trivial, rfl, rfl⟩⟩
  | windowScale scale =>
    refine ⟨3, [3, scale], rfl, by decide, by decide, fun rest => ?_⟩
    exact bind_eq_ok_iff.mpr ⟨(), scale :: rest, expectLength_eq_ok_iff.mpr rfl,
      (bind_readIo_eq_ok_iff decodes_u8).mpr ⟨scale, trivial, rfl, rfl⟩⟩
  | selectiveAcknowlegementPermitted =>
    refine ⟨4, [2], rfl, by decide, by decide, fun rest => ?_⟩
    exact bind_eq_ok_iff.mpr ⟨(), rest, expectLength_eq_ok_iff.mpr rfl, rfl⟩
  | selectiveAcknowlegement numSacks sacks =>
    obtain ⟨h1, h4, hfour, hzero⟩ := hw
    obtain ⟨hlength, hnum⟩ := sackLength_iff.mpr ⟨rfl, h1, h4⟩
    obtain ⟨hcount, hsacks, -⟩ := sackBlocks_iff.mpr ⟨rfl, hfour, h4, hzero⟩
    refine ⟨5, UInt8.ofNat (2 + 8 * numSacks) :: (sacks.take numSacks).flatMap SelectiveAcknowlegement.bytes, rfl,
      by decide, by decide, fun rest => ?_⟩
    refine bind_eq_ok_iff.mpr ⟨UInt8.ofNat (2 + 8 * numSacks), _, readIo_eq_ok_iff.mpr rfl, ?_⟩
    refine bind_eq_ok_iff.mpr ⟨(), _, liftExcept_eq_ok_iff.mpr ⟨refuse_eq_ok_iff.mpr (fun h => h hlength), rfl⟩, ?_⟩
    refine (bind_readIo_eq_ok_iff (decodes_readMany decodes_readSack _)).mpr ⟨sacks.take numSacks, ?_, rfl, ?_⟩
    · rw [hnum]
      exact ⟨hcount, fun _ _ => trivial⟩
    · rw [hnum, ← hsacks]
  | timestamp sender echo =>
    refine ⟨8, 10 :: (be32 sender ++ be32 echo), rfl, by decide, by decide, fun rest => ?_⟩
    refine bind_eq_ok_iff.mpr ⟨(), be32 sender ++ (be32 echo ++ rest), expectLength_eq_ok_iff.mpr rfl, ?_⟩
    refine bind_eq_ok_iff.mpr ⟨sender, be32 echo ++ rest, ?_, ?_⟩
    · exact readIo_eq_ok_iff.mpr ((decodes_be32 _ sender _).mpr ⟨trivial, rfl⟩)
    · exact (bind_readIo_eq_ok_iff decodes_be32).mpr ⟨echo, trivial, rfl, rfl⟩

theorem TcpOption.length_bytes_pos (option : TcpOption) : 0 < option.bytes.length := by
  cases option <;> exact Nat.succ_pos _

theorem parseOption_shorter {optionKind : UInt8} {rdr rest : Buffer} {option : TcpOption}
    (h : parseOption optionKind rdr = .ok (option, rest)) : rest.length ≤ rdr.length := by
  obtain ⟨-, -, hbytes⟩ := parseOption_sound h
  have hlength := congrArg List.length hbytes
  have hpos := option.length_bytes_pos
  rw [List.length_cons, List.length_append] at hlength
  omega

/-- The option loop; `options` has been read so far. -/
def parseOptions (options : List TcpOption) (optionRdr : Buffer) : Except Fail (List TcpOption) :=
  match optionRdr with
  | [] => .ok options
  | optionKind :: rdr =>
    if optionKind = 0 then .ok options
    else if optionKind = 1 then parseOptions options rdr
    else
      match _hread : parseOption optionKind rdr with
      | .error e => .error e
      | .ok (option, rest) =>
        if maxTcpOptions ≤ options.length then .error ⟨.EBADMSG, "too many TCP options provided"⟩
        else parseOptions (options ++ [option]) rest
termination_by optionRdr.length
decreasing_by
  · exact Nat.lt_succ_self rdr.length
  · exact Nat.lt_succ_of_le (parseOption_shorter _hread)


/-- The options that were taken from the front of an area, each wholly, one after the other, up to its end or to an
end mark. -/
def TakenFrom (area : Buffer) (items : List TcpOption) : Prop :=
  ∃ tail, area = items.flatMap TcpOption.bytes ++ tail ∧ (tail = [] ∨ ∃ rest, tail = 0 :: rest) ∧
    ∀ item ∈ items, item.WellFormed

def dropNoOperation (items : List TcpOption) : List TcpOption := items.filter (· ≠ .noOperation)

/-- The options of an option area in wire order; the no-operations between them are not kept. -/
def OptionArea (area : Buffer) (options : List TcpOption) : Prop :=
  ∃ items, TakenFrom area items ∧ options = dropNoOperation items ∧ options.length ≤ maxTcpOptions

theorem TakenFrom.cons {area rest : Buffer} {items : List TcpOption} {item : TcpOption}
    (h : TakenFrom rest items) (hw : item.WellFormed) (ha : area = item.bytes ++ rest) :
    TakenFrom area (item :: items) := by
  obtain ⟨tail, rfl, ht, hi⟩ := h
  refine ⟨tail, by rw [ha, List.flatMap_cons, List.append_assoc], ht, fun other ho => ?_⟩
  rcases List.mem_cons.mp ho with rfl | ho
  · exact hw
  · exact hi other ho

theorem dropNoOperation_cons_of_ne {item : TcpOption} (h : item ≠ .noOperation) (items : List TcpOption) :
    dropNoOperation (item :: items) = item :: dropNoOperation items := List.filter_cons_of_pos (by simpa using h)

theorem dropNoOperation_noOperation (items : List TcpOption) :
    dropNoOperation (.noOperation :: items) = dropNoOperation items := List.filter_cons_of_neg (by simp)

theorem parseOptions_sound {options result : List TcpOption} {rdr : Buffer} (hmax : options.length ≤ maxTcpOptions)
    (h : parseOptions options rdr = .ok result) :
    ∃ items, TakenFrom rdr items ∧ result = options ++ dropNoOperation items ∧ result.length ≤ maxTcpOptions := by
  fun_induction parseOptions options rdr with
  | case1 options =>
    obtain rfl := Except.ok.inj h
    exact ⟨[], ⟨[], rfl, .inl rfl, fun item hi => (List.not_mem_nil hi).elim⟩, (List.append_nil options).symm, hmax⟩
  | case2 options rdr =>
    obtain rfl := Except.ok.inj h
    exact ⟨[], ⟨0 :: rdr, rfl, .inr ⟨rdr, rfl⟩, fun item hi => (List.not_mem_nil hi).elim⟩,
      (List.append_nil options).symm, hmax⟩
  | case3 options rdr h0 ih =>
    obtain ⟨items, ht, hr, hl⟩ := ih hmax h
    exact ⟨.noOperation :: items, ht.cons trivial rfl, by rw [dropNoOperation_noOperation]; exact hr, hl⟩
  | case4 => cases h
  | case5 => cases h
  | case6 options optionKind rdr h0 h1 option rest hread hroom ih =>
    obtain ⟨hn, hw, hbytes⟩ := parseOption_sound hread
    have hmax' : (options ++ [option]).length ≤ maxTcpOptions := by
      rw [List.length_append, List.length_singleton]
      omega
    obtain ⟨items, ht, hr, hl⟩ := ih hmax' h
    refine ⟨option :: items, ht.cons hw hbytes, ?_, hl⟩
    rw [hr, dropNoOperation_cons_of_ne hn, List.append_assoc]
    rfl

theorem parseOptions_complete {items : List TcpOption} (options : List TcpOption) {tail : Buffer}
    (hw : ∀ item ∈ items, item.WellFormed) (ht : tail = [] ∨ ∃ rest, tail = 0 :: rest)
    (hmax : options.length + (dropNoOperation items).length ≤ maxTcpOptions) :
    parseOptions options (items.flatMap TcpOption.bytes ++ tail) = .ok (options ++ dropNoOperation items) := by
  induction items generalizing options with
  | nil =>
    have hnil : options ++ dropNoOperation [] = options := List.append_nil options
    rw [hnil]
    obtain rfl | ⟨rest, rfl⟩ := ht
    · rw [List.flatMap_nil, List.nil_append, parseOptions]
    · rw [List.flatMap_nil, List.nil_append, parseOptions, if_pos rfl]
  | cons item items ih =>
    have hi := hw item List.mem_cons_self
    have hrest : ∀ other ∈ items, other.WellFormed := fun other ho => hw other (List.mem_cons_of_mem _ ho)
    rw [List.flatMap_cons, List.append_assoc]
    by_cases hn : item = .noOperation
    · subst hn
      rw [dropNoOperation_noOperation] at hmax ⊢
      have hstep : ∀ rdr, parseOptions options (TcpOption.noOperation.bytes ++ rdr) = parseOptions options rdr := by
        intro rdr
        rw [TcpOption.bytes, List.singleton_append, parseOptions, if_neg (by decide), if_pos rfl]
      rw [hstep]
      exact ih options hrest hmax
    · obtain ⟨optionKind, rdr, hbytes, h0, h1, hread⟩ := parseOption_bytes hn hi
      rw [dropNoOperation_cons_of_ne hn, List.length_cons] at hmax
      have hlen : (options ++ [item]).length = options.length + 1 := by
        rw [List.length_append, List.length_singleton]
      rw [hbytes, List.cons_append, parseOptions, if_neg h0, if_neg h1]
      split
      next e he =>
        rw [hread] at he
        cases he
      next option rest he =>
        rw [hread] at he
        obtain ⟨rfl, rfl⟩ := Prod.mk.inj (Except.ok.inj he)
        rw [if_neg (by omega), ih (options ++ [item]) hrest (by omega), dropNoOperation_cons_of_ne hn,
          List.append_assoc]
        rfl

/-- The parser reads exactly the option areas with few enough options. -/
theorem parseOptions_eq_ok_iff {area : Buffer} {options : List TcpOption} :
    parseOptions [] area = .ok options ↔ OptionArea area options := by
  constructor
  · intro h
    exact parseOptions_sound (Nat.zero_le _) h
  · rintro ⟨items, ⟨tail, rfl, ht, hw⟩, rfl, hl⟩
    exact parseOptions_complete [] hw ht (by rw [List.length_nil, Nat.zero_add]; exact hl)

theorem OptionArea.unique {area : Buffer} {options options' : List TcpOption} (h : OptionArea area options)
    (h' : OptionArea area options') : options = options' :=
  Except.ok.inj ((parseOptions_eq_ok_iff.mpr h).symm.trans (parseOptions_eq_ok_iff.mpr h'))

/-- Everything that can be wrong with an option area. -/
def optionErrors : List Fail :=
  [ioFail "I/O error", ⟨.EBADMSG, "MSS size was not 4"⟩, ⟨.EBADMSG, "window scale size was not 3"⟩,
    ⟨.EBADMSG, "SACK permitted size was not 2"⟩, ⟨.EBADMSG, "invalid SACK size"⟩,
    ⟨.EBADMSG, "TCP timestamp size was not 10"⟩, ⟨.EBADMSG, "invalid TCP option"⟩,
    ⟨.EBADMSG, "too many TCP options provided"⟩]

/-- A reader whose every failure is listed. -/
def FailsIn {α : Type} (errors : List Fail) (m : StateT Buffer (Except Fail) α) : Prop :=
  ∀ rdr e, m rdr = .error e → e ∈ errors

theorem FailsIn.bind {α β : Type} {errors : List Fail} {m : StateT Buffer (Except Fail) α}
    {k : α → StateT Buffer (Except Fail) β} (h : FailsIn errors m) (h' : ∀ a, FailsIn errors (k a)) :
    FailsIn errors (m >>= k) := by
  intro rdr e he
  rcases bind_eq_error_iff.mp he with hm | ⟨a, rdr', -, hk⟩
  · exact h rdr e hm
  · exact h' a rdr' e hk

theorem failsIn_pure {α : Type} (errors : List Fail) (a : α) :
    FailsIn errors (pure a : StateT Buffer (Except Fail) α) := fun _ _ h => (by cases h)

theorem failsIn_readIo {α : Type} {errors : List Fail} (h : ioFail "I/O error" ∈ errors) (r : Read α) :
    FailsIn errors (readIo r) := by
  intro rdr e he
  unfold readIo at he
  split at he
  next => cases he
  next =>
    obtain rfl := Except.error.inj he
    exact h

theorem failsIn_refuse {errors : List Fail} {p : Prop} [Decidable p] {fail : Fail} (h : fail ∈ errors) :
    FailsIn errors (liftM (refuse p fail) : StateT Buffer (Except Fail) Unit) := by
  intro rdr e he
  by_cases hp : p
  · have hfail : (liftM (refuse p fail) : StateT Buffer (Except Fail) Unit) rdr = .error fail := by
      rw [refuse, if_pos hp]
      rfl
    obtain rfl := Except.error.inj (hfail.symm.trans he)
    exact h
  · have hok : (liftM (refuse p fail) : StateT Buffer (Except Fail) Unit) rdr = .ok ((), rdr) := by
      rw [refuse_of_not hp]
      rfl
    rw [hok] at he
    cases he

theorem failsIn_expectLength {length : UInt8} {cause : String} (h : ⟨.EBADMSG, cause⟩ ∈ optionErrors) :
    FailsIn optionErrors (expectLength length cause) :=
  (failsIn_readIo (by decide) _).bind fun _ => failsIn_refuse h

theorem failsIn_parseOption (optionKind : UInt8) : FailsIn optionErrors (parseOption optionKind) := by
  have hread : ∀ {α : Type} (r : Read α), FailsIn optionErrors (readIo r) := fun r => failsIn_readIo (by decide) r
  unfold parseOption
  split
  next => exact (failsIn_expectLength (by decide)).bind fun _ => (hread _).bind fun _ => failsIn_pure _ _
  next =>
  split
  next => exact (failsIn_expectLength (by decide)).bind fun _ => (hread _).bind fun _ => failsIn_pure _ _
  next =>
  split
  next => exact (failsIn_expectLength (by decide)).bind fun _ => failsIn_pure _ _
  next =>
  split
  next =>
    exact (hread _).bind fun _ => (failsIn_refuse (by decide)).bind fun _ => (hread _).bind fun _ => failsIn_pure _ _
  next =>
  split
  next =>
    exact (failsIn_expectLength (by decide)).bind fun _ => (hread _).bind fun _ => (hread _).bind fun _ =>
      failsIn_pure _ _
  next =>
    intro rdr e he
    obtain rfl := Except.error.inj he
    decide

theorem parseOptions_error {options : List TcpOption} {rdr : Buffer} {e : Fail}
    (h : parseOptions options rdr = .error e) : e ∈ optionErrors := by
  fun_induction parseOptions options rdr with
  | case1 => cases h
  | case2 => cases h
  | case3 options rdr h0 ih => exact ih h
  | case4 options optionKind rdr h0 h1 e' hread =>
    obtain rfl := Except.error.inj h
    exact failsIn_parseOption optionKind rdr e' hread
  | case5 =>
    obtain rfl := Except.error.inj h
    decide
  | case6 options optionKind rdr h0 h1 option rest hread hroom ih => exact ih h

end Capybara
