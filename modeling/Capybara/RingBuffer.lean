import Capybara.Basics
import Capybara.Lib.Window

namespace Capybara

open Window

/-- The size and alignment of the element type. -/
structure Layout where
  size : Nat
  align : Nat
  deriving DecidableEq, Repr

/-- `Layout::array`, where no array may be longer than `isize::MAX`. -/
def Layout.array (layout : Layout) (cap : Nat) : Option Nat :=
  if layout.size * cap + layout.align ≤ 2 ^ 63 then some (layout.size * cap) else none

/-- A fixed-size array. -/
structure RawArray (α : Type) where
  data : List α
  nonempty : data ≠ []
  fits : data.length < 2 ^ 64
  deriving DecidableEq

namespace RawArray

variable {α : Type}

def capacity (a : RawArray α) : Nat := a.data.length

theorem capacity_pos (a : RawArray α) : 0 < a.capacity := List.length_pos_iff.mpr a.nonempty

/-- The cells of `cap` elements in memory. -/
def ofMemory (memory : Nat → α) (cap : UInt64) (h : cap.toNat ≠ 0) : RawArray α where
  data := (List.range cap.toNat).map memory
  nonempty := by simp [h]
  fits := by simpa using cap.toNat_lt

def new (layout : Layout) (memory : Nat → α) (cap : UInt64) : Except Fail (RawArray α) :=
  if h : cap.toNat = 0 then .error ⟨.EINVAL, "cannot create a raw array with zero capacity"⟩
  else match layout.array cap.toNat with
    | none => .error ⟨.EAGAIN, "failed to create memory layout for raw array"⟩
    | some _ => .ok (ofMemory memory cap h)

def fromRawParts (memory : Nat → α) (ptr : Nat) (len : UInt64) : Except Fail (RawArray α) :=
  if h : len.toNat = 0 then .error ⟨.EINVAL, "cannot create a raw array with zero capacity"⟩
  else if ptr = 0 then .error ⟨.EAGAIN, "cannot create raw array from null pointer"⟩
  else .ok (ofMemory memory len h)

theorem capacity_ofMemory (memory : Nat → α) (cap : UInt64) (h : cap.toNat ≠ 0) :
    (ofMemory memory cap h).capacity = cap.toNat := by
  simp [capacity, ofMemory]

theorem capacity_new {layout : Layout} {memory : Nat → α} {cap : UInt64} {a : RawArray α}
    (h : new layout memory cap = .ok a) : a.capacity = cap.toNat := by
  unfold new at h
  split at h
  next => cases h
  next hcap =>
    split at h
    next => cases h
    next => cases h; exact capacity_ofMemory memory cap hcap

theorem capacity_fromRawParts {memory : Nat → α} {ptr : Nat} {len : UInt64} {a : RawArray α}
    (h : fromRawParts memory ptr len = .ok a) : a.capacity = len.toNat := by
  unfold fromRawParts at h
  split at h
  next => cases h
  next hlen =>
    split at h
    next => cases h
    next => cases h; exact capacity_ofMemory memory len hlen

def set (a : RawArray α) (i : Nat) (item : α) : RawArray α where
  data := a.data.set i item
  nonempty := by simpa [List.set_eq_nil_iff] using a.nonempty
  fits := by simpa using a.fits

theorem capacity_set (a : RawArray α) (i : Nat) (item : α) : (a.set i item).capacity = a.capacity := List.length_set

end RawArray

/-- A single writer and single reader, fixed-size circular buffer. -/
structure RingBuffer (α : Type) where
  backPtr : Nat
  frontPtr : Nat
  buffer : RawArray α
  mask : Nat
  powerOfTwo : buffer.capacity.isPowerOfTwo
  masked : mask = buffer.capacity - 1
  deriving DecidableEq

/-- The memory from which a ring buffer can be built. -/
structure Region (α : Type) where
  front : Nat
  back : Nat
  cells : Nat → α

/-- `align_offset` of an address, for an alignment that is a power of two. -/
def alignOffset (ptr align : Nat) : Nat := (align - ptr % align) % align

namespace RingBuffer

variable {α : Type} {ring : RingBuffer α} {index : Nat}

def new (layout : Layout) (memory : Nat → α) (capacity : UInt64) : Except Fail (RingBuffer α) :=
  if hpow : capacity.toNat.isPowerOfTwo then
    match hnew : RawArray.new layout memory capacity with
    | .error fail => .error fail
    | .ok buffer => .ok {
        backPtr := 0
        frontPtr := 0
        buffer := buffer
        mask := capacity.toNat - 1
        powerOfTwo := RawArray.capacity_new hnew ▸ hpow
        masked := by rw [RawArray.capacity_new hnew] }
  else .error ⟨.EINVAL, "cannot create a ring buffer that does not have a power of two capacity"⟩

/-- The highest power of two that fits in. -/
def highestPower (maxlen : Nat) : UInt64 := .ofNat (2 ^ maxlen.log2)

theorem toNat_highestPower {maxlen : Nat} (hpos : maxlen ≠ 0) (hlt : maxlen < 2 ^ 64) :
    (highestPower maxlen).toNat = 2 ^ maxlen.log2 :=
  UInt64.toNat_ofNat_of_lt' (Nat.lt_of_le_of_lt (Nat.log2_self_le hpos) hlt)

/-- Builds a ring in a memory region at address `ptr`: two indices, padding and the elements. Aligning panics unless the
size of an element is a power of two. -/
def fromRawParts (layout : Layout) (memory : Region α) (init : Bool) (ptr size : UInt64) :
    Option (Except Fail (RingBuffer α)) :=
  if ptr.toNat = 0 then some (.error ⟨.EINVAL, "cannot construct a ring buffer from a null pointer"⟩)
  else if ptr.toNat % 8 ≠ 0 then
    some (.error ⟨.EINVAL, "cannot construct a ring buffer from a unaligned memory region"⟩)
  else if hpow : layout.size.isPowerOfTwo then
    let padding := alignOffset (ptr.toNat + 8 + 8) layout.size
    let sizeOfRing := 8 + 8 + padding
    if hsize : size.toNat < sizeOfRing + layout.size then
      some (.error ⟨.EINVAL, "memory region is too small to fit in a ring buffer"⟩)
    else
      let maxlen := (size.toNat - sizeOfRing) / layout.size
      have hlen : (highestPower maxlen).toNat = 2 ^ maxlen.log2 :=
        toNat_highestPower
          (Nat.ne_zero_of_lt
            (Nat.div_pos (Nat.le_sub_of_add_le' (Nat.le_of_not_lt hsize)) (Nat.pos_of_isPowerOfTwo hpow)))
          (Nat.lt_of_le_of_lt (Nat.le_trans (Nat.div_le_self _ _) (Nat.sub_le _ _)) size.toNat_lt)
      match hbuf : RawArray.fromRawParts memory.cells (ptr.toNat + 8 + 8 + padding) (highestPower maxlen) with
      | .error fail => some (.error fail)
      | .ok buffer => some (.ok {
          backPtr := if init then 0 else memory.back
          frontPtr := if init then 0 else memory.front
          buffer := buffer
          mask := (highestPower maxlen).toNat - 1
          powerOfTwo := ⟨maxlen.log2, (RawArray.capacity_fromRawParts hbuf).trans hlen⟩
          masked := by rw [RawArray.capacity_fromRawParts hbuf] })
  else none

/-- The effective capacity. -/
def capacity (ring : RingBuffer α) : Nat := ring.buffer.capacity - 1

/-- `(index + 1) & self.mask`, where the addition is checked. -/
def next (ring : RingBuffer α) (index : Nat) : Option Nat :=
  if index + 1 < 2 ^ 64 then some ((index + 1) &&& ring.mask) else none

/-- `data[index] = item`. -/
def write (ring : RingBuffer α) (index : Nat) (item : α) : Option (RingBuffer α) :=
  if index < ring.buffer.capacity then
    some { ring with
      buffer := ring.buffer.set index item
      powerOfTwo := by rw [RawArray.capacity_set]; exact ring.powerOfTwo
      masked := by rw [RawArray.capacity_set]; exact ring.masked }
  else none

/-- `data[index]`. -/
def read (ring : RingBuffer α) (index : Nat) : Option α := ring.buffer.data[index]?

def tryEnqueue (ring : RingBuffer α) (item : α) : Option (RingBuffer α × Except α Unit) := do
  let next ← ring.next ring.backPtr
  if next = ring.frontPtr then
    some (ring, .error item)
  else
    let written ← ring.write ring.backPtr item
    some ({ written with backPtr := next }, .ok ())

def tryDequeue (ring : RingBuffer α) : Option (RingBuffer α × Option α) :=
  if ring.backPtr = ring.frontPtr then some (ring, none)
  else do
    let item ← ring.read ring.frontPtr
    let next ← ring.next ring.frontPtr
    some ({ ring with frontPtr := next }, some item)

theorem next_eq (hi : index < ring.buffer.capacity) :
    ring.next index = some (slot ring.buffer.capacity index 1) := by
  obtain ⟨k, hk⟩ := ring.powerOfTwo
  have hlt : ring.buffer.capacity < 2 ^ 64 := ring.buffer.fits
  rw [next, if_pos (by omega), ring.masked, hk, Nat.and_two_pow_sub_one_eq_mod, slot]

theorem write_eq (hi : index < ring.buffer.capacity) (item : α) :
    ∃ written, ring.write index item = some written ∧ written.backPtr = ring.backPtr ∧
      written.frontPtr = ring.frontPtr ∧ written.buffer.data = ring.buffer.data.set index item :=
  ⟨_, if_pos hi, rfl, rfl, rfl⟩

/-- The rings that the two constructors build. -/
inductive Built (ring : RingBuffer α) : Prop
  | new (layout : Layout) (memory : Nat → α) (capacity : UInt64) (h : new layout memory capacity = .ok ring)
  | fromRawParts (layout : Layout) (memory : Region α) (ptr size : UInt64)
      (h : fromRawParts layout memory true ptr size = some (.ok ring))

theorem new_empty {layout : Layout} {memory : Nat → α} {capacity : UInt64}
    (h : new layout memory capacity = .ok ring) : ring.backPtr = 0 ∧ ring.frontPtr = 0 := by
  unfold new at h
  split at h
  next =>
    split at h
    next => cases h
    next => cases h; exact ⟨rfl, rfl⟩
  next => cases h

theorem fromRawParts_empty {layout : Layout} {memory : Region α} {ptr size : UInt64}
    (h : fromRawParts layout memory true ptr size = some (.ok ring)) : ring.backPtr = 0 ∧ ring.frontPtr = 0 := by
  unfold fromRawParts at h
  split at h
  next => cases h
  split at h
  next => cases h
  split at h
  next =>
    dsimp only at h
    split at h
    next => cases h
    next =>
      split at h
      next => cases h
      next => cases h; exact ⟨rfl, rfl⟩
  next => cases h

theorem Built.empty (h : ring.Built) : ring.backPtr = 0 ∧ ring.frontPtr = 0 := by
  cases h with
  | new layout memory capacity h => exact new_empty h
  | fromRawParts layout memory ptr size h => exact fromRawParts_empty h

/-- The items between the two indices. -/
def held (ring : RingBuffer α) : List α :=
  window ring.buffer.data ring.frontPtr (distance ring.buffer.capacity ring.frontPtr ring.backPtr)

end RingBuffer

end Capybara
