import Capybara.ControlBlock

namespace Capybara

/-- How one pass of `store_out_of_order_segment` over the store ends: the new data is already there, or it
goes in at an index, or it swallows the entry at an index and another pass is needed. -/
inductive Placement
  | duplicate
  | insertAt (actionIndex : Nat) (newStart : SeqNumber) (buf : Buffer)
  | removeAt (actionIndex : Nat) (newStart newEnd : SeqNumber) (buf : Buffer)
  deriving DecidableEq, Repr

/-- The pass over the stored segments from `index` on; `len` is the length of the whole store. -/
def findPlace (len : Nat) :
    List (SeqNumber × Buffer) → Nat → SeqNumber → SeqNumber → Buffer → Option Placement
  | [], _, newStart, _, buf => some (.insertAt len newStart buf)
  | (storedStart, stored) :: rest, index, newStart, newEnd, buf =>
    if stored.length = 0 then none
    else
      let storedEnd := storedStart + SeqNumber.ofNat (stored.length - 1)
      if newStart.lt storedStart then
        if newEnd.lt storedStart then some (.insertAt index newStart buf)
        else if storedEnd.lt newEnd then some (.removeAt index newStart newEnd buf)
        else do
          let excess := (newEnd - storedStart).toNat + 1
          let buf ← trim buf excess
          some (.insertAt len newStart buf)
      else if newEnd.le storedEnd then some .duplicate
      else if storedEnd.lt newStart then findPlace len rest (index + 1) newStart newEnd buf
      else do
        let duplicate := (storedEnd - newStart).toNat
        let buf ← adjust buf duplicate
        findPlace len rest (index + 1) (newStart + SeqNumber.ofNat duplicate) newEnd buf

/-- The passes of `store_out_of_order_segment`. Each one but the last removes an entry, so a budget of one
more pass than there are entries is never used up. -/
def placeSegment : Nat → List (SeqNumber × Buffer) → SeqNumber → SeqNumber → Buffer →
    Option (List (SeqNumber × Buffer))
  | 0, _, _, _, _ => none
  | passes + 1, store, newStart, newEnd, buf => do
    match ← findPlace store.length store 0 newStart newEnd buf with
    | .duplicate => some store
    | .insertAt actionIndex newStart buf =>
      some ((store.insertIdx actionIndex (newStart, buf)).take maxOutOfOrder)
    | .removeAt actionIndex newStart newEnd buf =>
      placeSegment passes (store.eraseIdx actionIndex) newStart newEnd buf

namespace ControlBlock

def storeOutOfOrderFin (cb : ControlBlock) (fin : SeqNumber) : ControlBlock :=
  { cb with outOfOrderFin := some fin }

def storeOutOfOrderSegment (cb : ControlBlock) (newStart newEnd : SeqNumber) (buf : Buffer) :
    Option ControlBlock := do
  let outOfOrder ← placeSegment (cb.outOfOrder.length + 1) cb.outOfOrder newStart newEnd buf
  some { cb with outOfOrder := outOfOrder }

end ControlBlock

/-- Moves stored segments to the receive queue as long as the front one starts at `recvNext`. The flag says
whether any was moved. -/
def drainOutOfOrder : List (SeqNumber × Buffer) → SeqNumber → Receiver → Bool →
    List (SeqNumber × Buffer) × SeqNumber × Receiver × Bool
  | [], recvNext, receiver, added => ([], recvNext, receiver, added)
  | (storedStart, stored) :: rest, recvNext, receiver, added =>
    if storedStart = recvNext then
      drainOutOfOrder rest (recvNext + SeqNumber.ofNat stored.length) (receiver.push stored) true
    else ((storedStart, stored) :: rest, recvNext, receiver, added)

namespace ControlBlock

/-- Receives in-order data. The flag is true when a stored out-of-order FIN is now in order. -/
def receiveData (cb : ControlBlock) (segStart : SeqNumber) (buf : Buffer) : Option (Bool × ControlBlock) := do
  let recvNext := cb.receiver.receiveNext
  debugAssert (segStart = recvNext)
  let (outOfOrder, recvNext, receiver, addedOutOfOrder) :=
    drainOutOfOrder cb.outOfOrder (recvNext + SeqNumber.ofNat buf.length) (cb.receiver.push buf) false
  some (addedOutOfOrder && cb.outOfOrderFin == some recvNext,
    { cb with outOfOrder := outOfOrder, receiver := receiver })

end ControlBlock

end Capybara
