import Mathlib.Data.UInt
import Mathlib.Data.List.Basic

namespace Wire

abbrev Bytes := List UInt8

/-- Fills the front of a slice and returns what it wrote and the unused part, unless it goes beyond the slice. -/
abbrev Write := Bytes → Option (Bytes × Bytes)

/-- Returns a value and the unread part. -/
abbrev Read := StateT Bytes Option

/-- Copies the given bytes to the front of the slice. -/
def put (bytes : Bytes) : Write := fun buf =>
  if bytes.length ≤ buf.length then some (bytes, buf.drop bytes.length) else none

def Write.andThen (first second : Write) : Write := fun buf => do
  let (front, buf) ← first buf
  let (back, buf) ← second buf
  some (front ++ back, buf)

/-- A writer that first checks a condition on what it is to write. -/
def Write.guard (p : Prop) [Decidable p] (w : Write) : Write := fun buf => if p then w buf else none

def writeAll {α : Type} (w : α → Write) : List α → Write
  | [] => put []
  | a :: as => (w a).andThen (writeAll w as)

def take (n : Nat) : Read Bytes := fun buf =>
  if n ≤ buf.length then some (buf.take n, buf.drop n) else none

/-- Reads a given number of values one after the other. -/
def readMany {α : Type} (r : Read α) : Nat → Read (List α)
  | 0 => pure []
  | n + 1 => do
    let a ← r
    let as ← readMany r n
    pure (a :: as)

/-- The writer writes exactly `bytes` when `p` holds and the slice is long enough, and fails when `p` does not
hold. -/
structure Writes (w : Write) (p : Prop) (bytes : Bytes) : Prop where
  fits : p → ∀ buf, bytes.length ≤ buf.length → w buf = some (bytes, buf.drop bytes.length)
  fails : ¬p → ∀ buf, w buf = none

/-- The reader gets `a` back from `bytes` and leaves everything behind them. -/
def Reads {α : Type} (r : Read α) (bytes : Bytes) (a : α) : Prop := ∀ rest, r (bytes ++ rest) = some (a, rest)

theorem writes_put (bytes : Bytes) : Writes (put bytes) True bytes where
  fits _ _ h := if_pos h
  fails h := absurd trivial h

theorem Writes.andThen {first second : Write} {p q : Prop} {front back : Bytes}
    (h : Writes first p front) (h' : Writes second q back) :
    Writes (first.andThen second) (p ∧ q) (front ++ back) where
  fits := by
    intro hpq buf hb
    have hl : (front ++ back).length = front.length + back.length := List.length_append
    have hf := h.fits hpq.1 buf (by omega)
    have hs := h'.fits hpq.2 (buf.drop front.length) (by simp only [List.length_drop]; omega)
    simp [Write.andThen, hf, hs, List.drop_drop]
  fails := by
    intro hpq buf
    by_cases hp : p
    · have hs := h'.fails fun hq => hpq ⟨hp, hq⟩
      simp [Write.andThen, hs]
    · simp [Write.andThen, h.fails hp buf]

theorem Writes.guard {w : Write} {p q : Prop} [Decidable q] {bytes : Bytes} (h : Writes w p bytes) :
    Writes (Write.guard q w) (q ∧ p) bytes where
  fits := by
    intro hqp buf hb
    simpa [Write.guard, hqp.1] using h.fits hqp.2 buf hb
  fails := by
    intro hqp buf
    by_cases hq : q
    · simpa [Write.guard, hq] using h.fails (fun hp => hqp ⟨hq, hp⟩) buf
    · simp [Write.guard, hq]

theorem Writes.congr {w : Write} {p q : Prop} {bytes : Bytes} (h : Writes w p bytes) (hpq : p ↔ q) :
    Writes w q bytes where
  fits hq := h.fits (hpq.mpr hq)
  fails hq := h.fails fun hp => hq (hpq.mp hp)

theorem writes_writeAll {α : Type} {w : α → Write} {p : α → Prop} {enc : α → Bytes}
    (h : ∀ a, Writes (w a) (p a) (enc a)) (as : List α) :
    Writes (writeAll w as) (∀ a ∈ as, p a) (as.flatMap enc) := by
  induction as with
  | nil => exact (writes_put []).congr (by simp)
  | cons a as ih => exact ((h a).andThen ih).congr (by simp)

/-- A size added up entry by entry is the length of what is written. -/
theorem foldl_length_flatMap {α : Type} {enc : α → Bytes} {f : Nat → α → Nat}
    (h : ∀ n a, f n a = n + (enc a).length) (as : List α) (n : Nat) :
    as.foldl f n = n + (as.flatMap enc).length := by
  induction as generalizing n with
  | nil => simp
  | cons a as ih =>
    simp only [List.foldl_cons, List.flatMap_cons, List.length_append, ih, h]
    omega

theorem reads_take {bytes : Bytes} {n : Nat} (h : bytes.length = n) : Reads (take n) bytes bytes := by
  intro rest
  subst n
  simp [take]

theorem Reads.bind {α β : Type} {r : Read α} {k : α → Read β} {front back : Bytes} {a : α} {b : β}
    (h : Reads r front a) (h' : Reads (k a) back b) : Reads (r >>= k) (front ++ back) b := by
  intro rest
  change (r (front ++ back ++ rest)).bind (fun x => k x.1 x.2) = _
  rw [List.append_assoc, h (back ++ rest), Option.bind_some]
  exact h' rest

theorem Reads.pure {α β : Type} {r : Read α} {bytes : Bytes} {a : α} (h : Reads r bytes a) (f : α → β) :
    Reads (r >>= fun x => Pure.pure (f x)) bytes (f a) := by
  have hp : Reads (Pure.pure (f a) : Read β) [] (f a) := fun _ => rfl
  simpa using @Reads.bind α β r (fun x => Pure.pure (f x)) bytes [] a (f a) h hp

theorem reads_readMany {α β : Type} {r : Read β} {enc : α → Bytes} {f : α → β} {as : List α}
    (h : ∀ a ∈ as, Reads r (enc a) (f a)) : Reads (readMany r as.length) (as.flatMap enc) (as.map f) := by
  induction as with
  | nil => exact fun rest => rfl
  | cons a as ih =>
    have hs := ih fun b hb => h b (List.mem_cons_of_mem _ hb)
    exact (h a List.mem_cons_self).bind (hs.pure _)

/-- `to_be_bytes` of a `u16` and of a `u32`. -/
def be16 (x : UInt16) : Bytes := [UInt8.ofNat (x.toNat / 2 ^ 8), UInt8.ofNat x.toNat]

def be32 (x : UInt32) : Bytes :=
  [UInt8.ofNat (x.toNat / 2 ^ 24), UInt8.ofNat (x.toNat / 2 ^ 16), UInt8.ofNat (x.toNat / 2 ^ 8),
    UInt8.ofNat x.toNat]

/-- The word with the given big-endian bytes. -/
def ofBe16 (a b : UInt8) : UInt16 := UInt16.ofNat (a.toNat * 2 ^ 8 + b.toNat)

def ofBe32 (a b c d : UInt8) : UInt32 :=
  UInt32.ofNat (a.toNat * 2 ^ 24 + b.toNat * 2 ^ 16 + c.toNat * 2 ^ 8 + d.toNat)

/-- Fields at fixed offsets of a slice that is known to be long enough. -/
def byteAt (buf : Bytes) (i : Nat) : UInt8 := buf.getD i 0

def u16At (buf : Bytes) (i : Nat) : UInt16 := ofBe16 (byteAt buf i) (byteAt buf (i + 1))

def u32At (buf : Bytes) (i : Nat) : UInt32 :=
  ofBe32 (byteAt buf i) (byteAt buf (i + 1)) (byteAt buf (i + 2)) (byteAt buf (i + 3))

/-- The same fields of a slice whose length is not known. -/
def sliceU8 (buf : Bytes) (i : Nat) : Option UInt8 := if i + 1 ≤ buf.length then some (byteAt buf i) else none

def sliceU16 (buf : Bytes) (i : Nat) : Option UInt16 := if i + 2 ≤ buf.length then some (u16At buf i) else none

def sliceU32 (buf : Bytes) (i : Nat) : Option UInt32 := if i + 4 ≤ buf.length then some (u32At buf i) else none

/-- `split_at`. -/
def splitAt (buf : Bytes) (i : Nat) : Option (Bytes × Bytes) :=
  if i ≤ buf.length then some (buf.take i, buf.drop i) else none

/-- The big-endian words of `chunks_exact(2)`. -/
def words : Bytes → List UInt16
  | a :: b :: buf => ofBe16 a b :: words buf
  | _ => []

def readU8 : Read UInt8
  | x :: buf => some (x, buf)
  | _ => none

def readBe16 : Read UInt16
  | a :: b :: buf => some (ofBe16 a b, buf)
  | _ => none

def readBe32 : Read UInt32
  | a :: b :: c :: d :: buf => some (ofBe32 a b c d, buf)
  | _ => none

theorem sliceU16_of_le {buf : Bytes} {i : Nat} (h : i + 2 ≤ buf.length) : sliceU16 buf i = some (u16At buf i) :=
  if_pos h

theorem sliceU32_of_le {buf : Bytes} {i : Nat} (h : i + 4 ≤ buf.length) : sliceU32 buf i = some (u32At buf i) :=
  if_pos h

theorem splitAt_of_le {buf : Bytes} {i : Nat} (h : i ≤ buf.length) :
    splitAt buf i = some (buf.take i, buf.drop i) := if_pos h

theorem sliceU8_of_lt {buf : Bytes} {i : Nat} (h : i < buf.length) : sliceU8 buf i = some (byteAt buf i) := if_pos h

theorem byteAt_take {buf : Bytes} {i n : Nat} (h : i < n) : byteAt (buf.take n) i = byteAt buf i := by
  rw [byteAt, byteAt, List.getD_eq_getElem?_getD, List.getD_eq_getElem?_getD, List.getElem?_take_of_lt h]

theorem u16At_take {buf : Bytes} {i n : Nat} (h : i + 2 ≤ n) : u16At (buf.take n) i = u16At buf i := by
  rw [u16At, u16At, byteAt_take (by omega), byteAt_take (by omega)]

theorem u32At_take {buf : Bytes} {i n : Nat} (h : i + 4 ≤ n) : u32At (buf.take n) i = u32At buf i := by
  rw [u32At, u32At, byteAt_take (by omega), byteAt_take (by omega), byteAt_take (by omega), byteAt_take (by omega)]

@[simp] theorem length_be16 (x : UInt16) : (be16 x).length = 2 := rfl

@[simp] theorem length_be32 (x : UInt32) : (be32 x).length = 4 := rfl

@[simp] theorem ofBe16_be16 (x : UInt16) : ofBe16 (UInt8.ofNat (x.toNat / 2 ^ 8)) (UInt8.ofNat x.toNat) = x := by
  have hx : x.toNat < 2 ^ 16 := UInt16.toNat_lt x
  apply UInt16.toNat_inj.mp
  simp only [ofBe16, UInt8.toNat_ofNat', UInt16.toNat_ofNat']
  omega

@[simp] theorem ofBe32_be32 (x : UInt32) :
    ofBe32 (UInt8.ofNat (x.toNat / 2 ^ 24)) (UInt8.ofNat (x.toNat / 2 ^ 16)) (UInt8.ofNat (x.toNat / 2 ^ 8))
      (UInt8.ofNat x.toNat) = x := by
  have hx : x.toNat < 2 ^ 32 := UInt32.toNat_lt x
  apply UInt32.toNat_inj.mp
  simp only [ofBe32, UInt8.toNat_ofNat', UInt32.toNat_ofNat']
  omega

@[simp] theorem be16_ofBe16 (a b : UInt8) : be16 (ofBe16 a b) = [a, b] := by
  have ha := UInt8.toNat_lt a
  have hb := UInt8.toNat_lt b
  have h : (ofBe16 a b).toNat = a.toNat * 2 ^ 8 + b.toNat := by
    rw [ofBe16, UInt16.toNat_ofNat']
    omega
  rw [be16, h]
  congr 1
  · apply UInt8.toNat_inj.mp
    rw [UInt8.toNat_ofNat']
    omega
  · congr 1
    apply UInt8.toNat_inj.mp
    rw [UInt8.toNat_ofNat']
    omega

@[simp] theorem be32_ofBe32 (a b c d : UInt8) : be32 (ofBe32 a b c d) = [a, b, c, d] := by
  have ha := UInt8.toNat_lt a
  have hb := UInt8.toNat_lt b
  have hc := UInt8.toNat_lt c
  have hd := UInt8.toNat_lt d
  have h : (ofBe32 a b c d).toNat = a.toNat * 2 ^ 24 + b.toNat * 2 ^ 16 + c.toNat * 2 ^ 8 + d.toNat := by
    rw [ofBe32, UInt32.toNat_ofNat']
    omega
  have hbyte : ∀ {n : Nat} {x : UInt8}, n % 2 ^ 8 = x.toNat → UInt8.ofNat n = x := by
    intro n x hx
    apply UInt8.toNat_inj.mp
    rw [UInt8.toNat_ofNat', hx]
  rw [be32, h, hbyte (show _ = a.toNat by omega), hbyte (show _ = b.toNat by omega),
    hbyte (show _ = c.toNat by omega), hbyte (show _ = d.toNat by omega)]

theorem reads_u8 (x : UInt8) : Reads readU8 [x] x := fun _ => rfl

theorem reads_be16 (x : UInt16) : Reads readBe16 (be16 x) x := by
  intro rest
  simp only [be16, List.cons_append, List.nil_append, readBe16, ofBe16_be16]

theorem reads_be32 (x : UInt32) : Reads readBe32 (be32 x) x := by
  intro rest
  simp only [be32, List.cons_append, List.nil_append, readBe32, ofBe32_be32]

/-- The reader takes the encodings of the values with the property and nothing else. -/
def Decodes {α : Type} (r : Read α) (p : α → Prop) (enc : α → Bytes) : Prop :=
  ∀ buf a rest, r buf = some (a, rest) ↔ p a ∧ buf = enc a ++ rest

theorem decodes_u8 : Decodes readU8 (fun _ => True) fun x => [x] := by
  intro buf a rest
  cases buf with
  | nil => simp [readU8]
  | cons x buf => simp [readU8]

theorem decodes_be16 : Decodes readBe16 (fun _ => True) be16 := by
  intro buf x rest
  constructor
  · intro h
    rw [readBe16.eq_def] at h
    split at h
    next a b buf =>
      obtain ⟨rfl, rfl⟩ := Prod.mk.inj (Option.some.inj h)
      exact ⟨trivial, by rw [be16_ofBe16]; rfl⟩
    next => cases h
  · rintro ⟨-, rfl⟩
    exact reads_be16 x rest

theorem decodes_be32 : Decodes readBe32 (fun _ => True) be32 := by
  intro buf x rest
  constructor
  · intro h
    rw [readBe32.eq_def] at h
    split at h
    next a b c d buf =>
      obtain ⟨rfl, rfl⟩ := Prod.mk.inj (Option.some.inj h)
      exact ⟨trivial, by rw [be32_ofBe32]; rfl⟩
    next => cases h
  · rintro ⟨-, rfl⟩
    exact reads_be32 x rest

theorem Decodes.bind {α β γ : Type} {r : Read α} {s : Read β} {p : α → Prop} {q : β → Prop} {enc : α → Bytes}
    {enc' : β → Bytes} (h : Decodes r p enc) (h' : Decodes s q enc') {f : α → β → γ} {left : γ → α} {right : γ → β}
    (hf : ∀ a b, left (f a b) = a ∧ right (f a b) = b) (hg : ∀ c, f (left c) (right c) = c) :
    Decodes (do let a ← r; let b ← s; pure (f a b)) (fun c => p (left c) ∧ q (right c))
      fun c => enc (left c) ++ enc' (right c) := by
  intro buf c rest
  constructor
  · intro hc
    obtain ⟨⟨a, mid⟩, ha, hc⟩ := Option.bind_eq_some_iff.mp hc
    obtain ⟨⟨b, last⟩, hb, hc⟩ := Option.bind_eq_some_iff.mp hc
    obtain ⟨rfl, rfl⟩ := Prod.mk.inj (Option.some.inj hc)
    obtain ⟨hp, rfl⟩ := (h buf a mid).mp ha
    obtain ⟨hq, rfl⟩ := (h' mid b last).mp hb
    show (p (left (f a b)) ∧ q (right (f a b))) ∧
      enc a ++ (enc' b ++ last) = enc (left (f a b)) ++ enc' (right (f a b)) ++ last
    rw [(hf a b).1, (hf a b).2, List.append_assoc]
    exact ⟨⟨hp, hq⟩, rfl⟩
  · rintro ⟨⟨hp, hq⟩, rfl⟩
    show _ = some (c, rest)
    rw [List.append_assoc]
    have ha := (h _ (left c) (enc' (right c) ++ rest)).mpr ⟨hp, rfl⟩
    have hb := (h' _ (right c) rest).mpr ⟨hq, rfl⟩
    refine Option.bind_eq_some_iff.mpr ⟨_, ha, Option.bind_eq_some_iff.mpr ⟨_, hb, ?_⟩⟩
    exact congrArg (fun c => some (c, rest)) (hg c)

theorem decodes_readMany {α : Type} {r : Read α} {p : α → Prop} {enc : α → Bytes} (h : Decodes r p enc) (n : Nat) :
    Decodes (readMany r n) (fun as => as.length = n ∧ ∀ a ∈ as, p a) fun as => as.flatMap enc := by
  induction n with
  | zero =>
    intro buf as rest
    constructor
    · intro hr
      obtain ⟨rfl, rfl⟩ := Prod.mk.inj (Option.some.inj hr)
      exact ⟨⟨rfl, fun a ha => (List.not_mem_nil ha).elim⟩, rfl⟩
    · rintro ⟨⟨hl, -⟩, rfl⟩
      rw [List.eq_nil_of_length_eq_zero hl]
      rfl
  | succ n ih =>
    intro buf as rest
    constructor
    · intro hr
      obtain ⟨⟨a, mid⟩, ha, hr⟩ := Option.bind_eq_some_iff.mp hr
      obtain ⟨⟨bs, last⟩, hb, hr⟩ := Option.bind_eq_some_iff.mp hr
      obtain ⟨rfl, rfl⟩ := Prod.mk.inj (Option.some.inj hr)
      obtain ⟨hp, rfl⟩ := (h buf a mid).mp ha
      obtain ⟨⟨hl, hps⟩, rfl⟩ := (ih mid bs last).mp hb
      refine ⟨⟨by rw [List.length_cons, hl], fun b hb => ?_⟩, (List.append_assoc _ _ _).symm⟩
      rcases List.mem_cons.mp hb with rfl | hb
      · exact hp
      · exact hps b hb
    · rintro ⟨⟨hl, hps⟩, rfl⟩
      cases as with
      | nil => cases hl
      | cons a as =>
        have ha := (h _ a (as.flatMap enc ++ rest)).mpr ⟨hps a List.mem_cons_self, rfl⟩
        have hb := (ih _ as rest).mpr ⟨⟨Nat.succ.inj hl, fun b hb => hps b (List.mem_cons_of_mem _ hb)⟩, rfl⟩
        have hs : (a :: as).flatMap enc ++ rest = enc a ++ (as.flatMap enc ++ rest) := by
          rw [List.flatMap_cons, List.append_assoc]
        show readMany r (n + 1) ((a :: as).flatMap enc ++ rest) = _
        rw [hs]
        exact Option.bind_eq_some_iff.mpr ⟨_, ha, Option.bind_eq_some_iff.mpr ⟨_, hb, rfl⟩⟩

/-- A step of a reader that reports what went wrong. -/
theorem bind_eq_ok_iff {ε σ α β : Type} {m : StateT σ (Except ε) α} {k : α → StateT σ (Except ε) β} {s : σ}
    {x : β × σ} : (m >>= k) s = .ok x ↔ ∃ a s', m s = .ok (a, s') ∧ k a s' = .ok x := by
  change (m s).bind (fun y => k y.1 y.2) = .ok x ↔ _
  cases h : m s with
  | error e => simp [Except.bind]
  | ok y => simp [Except.bind, Prod.ext_iff]

theorem bind_eq_error_iff {ε σ α β : Type} {m : StateT σ (Except ε) α} {k : α → StateT σ (Except ε) β} {s : σ}
    {e : ε} : (m >>= k) s = .error e ↔ m s = .error e ∨ ∃ a s', m s = .ok (a, s') ∧ k a s' = .error e := by
  change (m s).bind (fun y => k y.1 y.2) = .error e ↔ _
  cases h : m s with
  | error e' => simp [Except.bind]
  | ok y => simp [Except.bind, Prod.ext_iff]

end Wire
