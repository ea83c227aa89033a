import Capybara.SchedulerHandles

namespace Capybara

abbrev QToken := Nat

inductive OperationResult
  | connect
  | accept (newQd : QDesc)
  | push
  | pop (addr : Option SocketAddrV4) (buf : Buffer)
  | failed (e : Fail)
  deriving DecidableEq, Repr

/-- A future that has completed, with what it gives. -/
inductive FutureOperation
  | tcp (qd : QDesc) (newQd : Option QDesc) (qr : OperationResult)
  | udp (qd : QDesc) (qr : OperationResult)
  | background
  deriving DecidableEq, Repr

/-- `operations` says what the future of a task is when it has completed. -/
structure InetStack where
  scheduler : Scheduler
  sane : scheduler.Sane
  operations : Nat → FutureOperation
  fileTable : HashMap QDesc Nat

/-- The arrays that results are written to. -/
structure Slots (R : Type) where
  qrs : List R
  indices : List Nat
  deriving DecidableEq, Repr

/-- Writing past the end of one of the arrays panics. -/
def Slots.store {R : Type} (w : Slots R) (completed : Nat) (r : R) (i : Nat) : Option (Slots R) :=
  if completed < w.qrs.length ∧ completed < w.indices.length then
    some ⟨w.qrs.set completed r, w.indices.set completed i⟩
  else none

namespace InetStack

/-- A failed accept gives the descriptor that was meant for it back. -/
def releaseFailed (s : InetStack) (newQd : Option QDesc) : OperationResult → InetStack
  | .failed _ => { s with fileTable := newQd.elim s.fileTable s.fileTable.remove }
  | _ => s

def takeOperation (s : InetStack) (key : Nat) : Option ((QDesc × OperationResult) × InetStack) :=
  match h : s.scheduler.takeRaw key with
  | none => none
  | some (task, scheduler) =>
    let s' : InetStack := { s with scheduler, sane := s.sane.takeRaw h }
    match s.operations task with
    | .tcp qd newQd qr => some ((qd, qr), s'.releaseFailed newQd qr)
    | .udp qd qr => some ((qd, qr), s')
    | .background => none

variable {R : Type}

/-- The loop over the tokens, from the one at place `i` on. With `bounded` it ends when `qrs` is full. The handle of a
task that has not completed is let go with its key taken out, so that nothing becomes of the task. -/
def scan (bounded : Bool) (pack : QDesc → OperationResult → QToken → R) :
    Nat → Nat → List QToken → InetStack → Slots R → Option (Except Fail Nat × InetStack × Slots R)
  | _, completed, [], s, w => some (.ok completed, s, w)
  | i, completed, qt :: qts, s, w =>
    if bounded ∧ completed = w.qrs.length then some (.ok completed, s, w)
    else
      match s.scheduler.fromRawHandle qt with
      | none => none
      | some none => some (.error ⟨.EINVAL, "invalid queue token"⟩, s, w)
      | some (some key) =>
        if s.scheduler.hasCompleted key then do
          let (r, s) ← s.takeOperation key
          let w ← w.store completed (pack r.1 r.2 qt) i
          scan bounded pack (i + 1) (completed + 1) qts s w
        else scan bounded pack (i + 1) completed qts s w

/-- One turn of the loop that waits: what `poll_bg_work` does then, and whether the timeout, if there is one, has run
out at the end of it. -/
structure Turn where
  pollBgWork : InetStack → Option InetStack
  elapsed : Bool

inductive Wait (R : Type)
  | waiting (s : InetStack) (w : Slots R)
  | returned (result : Except Fail Nat) (s : InetStack) (w : Slots R)

/-- The first turns of a call that waits. -/
def waitLoop (pack : QDesc → OperationResult → QToken → R) (qts : List QToken) :
    List Turn → InetStack → Slots R → Option (Wait R)
  | [], s, w => some (.waiting s w)
  | turn :: turns, s, w => do
    let s ← turn.pollBgWork s
    let (result, s, w) ← scan true pack 0 0 qts s w
    match result with
    | .error e => some (.returned (.error e) s w)
    | .ok completed =>
      if completed > 0 then some (.returned (.ok completed) s w)
      else if turn.elapsed then some (.returned (.ok 0) s w)
      else waitLoop pack qts turns s w

def waitAny2 (qts : List QToken) (turns : List Turn) (s : InetStack) (w : Slots (QDesc × OperationResult)) :
    Option (Wait (QDesc × OperationResult)) :=
  waitLoop (fun qd r _ => (qd, r)) qts turns s w

/-- `packResult` is what the library makes of a result for its callers. -/
def waitAny (packResult : OperationResult → QDesc → QToken → R) (qts : List QToken) (turns : List Turn) (s : InetStack)
    (w : Slots R) : Option (Wait R) :=
  waitLoop (fun qd r qt => packResult r qd qt) qts turns s w

def waitAnyNonblocking2 (qts : List QToken) (pollBgWork : InetStack → Option InetStack) (s : InetStack)
    (w : Slots (QDesc × OperationResult)) : Option (Except Fail Nat × InetStack × Slots (QDesc × OperationResult)) := do
  let s ← pollBgWork s
  scan false (fun qd r _ => (qd, r)) 0 0 qts s w

/-- The token names an operation that has completed. -/
def ready (s : InetStack) (qt : QToken) : Bool :=
  (s.scheduler.slab.get qt).isSome && s.scheduler.hasCompleted qt

def outcome (s : InetStack) (qt : QToken) : Option (QDesc × OperationResult) := do
  let task ← s.scheduler.slab.get qt
  match s.operations task with
  | .tcp qd _ qr => some (qd, qr)
  | .udp qd qr => some (qd, qr)
  | .background => none

/-- Exactly the given operations have left the scheduler, each once, and stand in the arrays in the order of their
tokens; all other operations are there as before. -/
structure Takes (pack : QDesc → OperationResult → QToken → R) (s s' : InetStack) (qts : List QToken) (w w' : Slots R)
    (taken : List (QToken × Nat)) : Prop where
  places : taken.Sublist qts.zipIdx
  once : (taken.map Prod.fst).Nodup
  ready : ∀ t ∈ taken, s.ready t.1 = true
  fits : taken.length ≤ w.qrs.length ∧ taken.length ≤ w.indices.length
  qrs : ∃ rs : List R, rs.map some = taken.map (fun t => (s.outcome t.1).map fun o => pack o.1 o.2 t.1) ∧
    w'.qrs = rs ++ w.qrs.drop taken.length
  indices : w'.indices = taken.map Prod.snd ++ w.indices.drop taken.length
  gone : ∀ t ∈ taken, s'.scheduler.slab.get t.1 = none
  stay : ∀ qt ∉ taken.map Prod.fst, s'.scheduler.slab.get qt = s.scheduler.slab.get qt ∧
    s'.scheduler.status qt = s.scheduler.status qt
  operations : s'.operations = s.operations

/-- An error takes nothing, and a count is the number of results. -/
def Lossless (pack : QDesc → OperationResult → QToken → R) (s : InetStack) (qts : List QToken) (w : Slots R)
    (result : Except Fail Nat) (s' : InetStack) (w' : Slots R) : Prop :=
  ∃ taken, Takes pack s s' qts w w' taken ∧ (∀ n, result = .ok n → taken.length = n) ∧
    ∀ e, result = .error e → taken = []

/-- A call that goes on waiting has taken nothing. -/
def Delivers (pack : QDesc → OperationResult → QToken → R) (s : InetStack) (qts : List QToken) (w : Slots R) :
    Wait R → Prop
  | .waiting s' w' => Lossless pack s qts w (.ok 0) s' w'
  | .returned result s' w' => Lossless pack s qts w result s' w'

/-- An operation whose result can be had: it was not dropped and is not a background task. -/
def Returns (s : InetStack) (qt : QToken) : Prop :=
  (s.scheduler.status qt).dropped = false ∧ (s.outcome qt).isSome = true

/-- Of the places that the loop gets to, one with an invalid token has no completed operation before it, and one with a
completed operation has a token that is new, whose result can be had and for which there is room. -/
def FineAfter (bounded : Bool) (s : InetStack) (w : Slots R) (before qts : List QToken) : Prop :=
  ∀ i qt, qts[i]? = some qt → (∀ qt' ∈ qts.take i, (s.scheduler.slab.get qt').isSome = true) →
    (bounded = true → ((before ++ qts.take i).filter s.ready).length < w.qrs.length) →
      (s.scheduler.slab.get qt = none → (before ++ qts.take i).filter s.ready = []) ∧
      (s.ready qt = true → qt ∉ before ++ qts.take i ∧ s.Returns qt ∧
        ((before ++ qts.take i).filter s.ready).length < w.qrs.length ∧
        ((before ++ qts.take i).filter s.ready).length < w.indices.length)

def Fine (bounded : Bool) (s : InetStack) (qts : List QToken) (w : Slots R) : Prop := FineAfter bounded s w [] qts

variable {bounded : Bool} {pack : QDesc → OperationResult → QToken → R} {s s' : InetStack} {w w' : Slots R}
  {before qts : List QToken} {qt : QToken}

theorem fineAfter_nil : FineAfter bounded s w before [] := fun i qt h => (by simp at h)

theorem fineAfter_cons : FineAfter bounded s w before (qt :: qts) ↔
    ((bounded = true → (before.filter s.ready).length < w.qrs.length) →
      (s.scheduler.slab.get qt = none → before.filter s.ready = []) ∧
      (s.ready qt = true → qt ∉ before ∧ s.Returns qt ∧ (before.filter s.ready).length < w.qrs.length ∧
        (before.filter s.ready).length < w.indices.length)) ∧
    ((s.scheduler.slab.get qt).isSome = true → FineAfter bounded s w (before ++ [qt]) qts) := by
  constructor
  · intro h
    refine ⟨fun hb => ?_, fun hqt i qt' hi hvalid => ?_⟩
    · have h0 := h 0 qt rfl (by simp)
      simp only [List.take_zero, List.append_nil] at h0
      exact h0 hb
    · have hs := h (i + 1) qt' hi
      rw [List.take_succ_cons, List.append_cons] at hs
      refine hs fun qt'' hmem => ?_
      rcases List.mem_cons.mp hmem with rfl | hmem
      · exact hqt
      · exact hvalid qt'' hmem
  · rintro ⟨hhead, htail⟩ i qt' hi hvalid
    cases i with
    | zero =>
      obtain rfl := Option.some.inj hi
      simp only [List.take_zero, List.append_nil]
      exact hhead
    | succ i =>
      simp only [List.take_succ_cons] at hvalid ⊢
      rw [List.append_cons before qt]
      exact htail (hvalid qt List.mem_cons_self) i qt' hi fun qt'' hmem => hvalid qt'' (List.mem_cons_of_mem qt hmem)

theorem fineAfter_cons_invalid (hroom : bounded = true → (before.filter s.ready).length < w.qrs.length)
    (hg : s.scheduler.slab.get qt = none) :
    FineAfter bounded s w before (qt :: qts) ↔ before.filter s.ready = [] := by
  rw [fineAfter_cons, hg]
  have hready : ¬ s.ready qt = true := by
    rw [ready, hg]
    exact Bool.false_ne_true
  refine ⟨fun h => (h.1 hroom).1 rfl, fun h => ⟨fun _ => ⟨fun _ => h, fun hr => absurd hr hready⟩, fun hs => ?_⟩⟩
  cases hs

theorem fineAfter_cons_pending {task : Nat} (hg : s.scheduler.slab.get qt = some task) (hready : s.ready qt = false) :
    FineAfter bounded s w before (qt :: qts) ↔ FineAfter bounded s w (before ++ [qt]) qts := by
  rw [fineAfter_cons, hg, hready]
  refine ⟨fun h => h.2 rfl, fun h => ⟨fun _ => ⟨fun hn => ?_, fun hr => ?_⟩, fun _ => h⟩⟩
  · cases hn
  · cases hr

theorem fineAfter_cons_completed {task : Nat} (hroom : bounded = true → (before.filter s.ready).length < w.qrs.length)
    (hg : s.scheduler.slab.get qt = some task) (hready : s.ready qt = true) :
    FineAfter bounded s w before (qt :: qts) ↔
      (qt ∉ before ∧ s.Returns qt ∧ (before.filter s.ready).length < w.qrs.length ∧
        (before.filter s.ready).length < w.indices.length) ∧ FineAfter bounded s w (before ++ [qt]) qts := by
  rw [fineAfter_cons, hg]
  refine ⟨fun h => ⟨(h.1 hroom).2 hready, h.2 rfl⟩, fun h => ⟨fun _ => ⟨fun hn => ?_, fun _ => h.1⟩, fun _ => h.2⟩⟩
  cases hn

/-- Nothing is wrong with tokens that come when the array is full. -/
theorem fineAfter_of_full (h : w.qrs.length ≤ (before.filter s.ready).length) : FineAfter true s w before qts := by
  intro i qt _ _ hroom
  have hlt := hroom rfl
  rw [List.filter_append, List.length_append] at hlt
  omega

def takenOf (s : InetStack) (qts : List QToken) : List (QToken × Nat) := qts.zipIdx.filter fun t => s.ready t.1

theorem takenOf_fst (s : InetStack) (qts : List QToken) : (s.takenOf qts).map Prod.fst = qts.filter s.ready := by
  conv_rhs => rw [← List.zipIdx_map_fst 0 qts, List.filter_map]
  rfl

theorem length_takenOf (s : InetStack) (qts : List QToken) : (s.takenOf qts).length = (qts.filter s.ready).length := by
  rw [← takenOf_fst, List.length_map]

theorem mem_takenOf : qt ∈ (s.takenOf qts).map Prod.fst ↔ qt ∈ qts ∧ s.ready qt = true := by
  rw [takenOf_fst, List.mem_filter]

theorem takenOf_append (s : InetStack) (qts : List QToken) (qt : QToken) : s.takenOf (qts ++ [qt]) =
    s.takenOf qts ++ if s.ready qt then [(qt, qts.length)] else [] := by
  unfold takenOf
  rw [List.zipIdx_append, List.filter_append, List.zipIdx_singleton, List.filter_singleton]
  simp

/-- A result that comes next goes to the next place. -/
theorem set_append_drop {α : Type} (rs l : List α) (r : α) (h : rs.length < l.length) :
    (rs ++ l.drop rs.length).set rs.length r = (rs ++ [r]) ++ l.drop (rs.length + 1) := by
  rw [List.set_append_right _ _ (Nat.le_refl _), Nat.sub_self, List.drop_eq_getElem_cons h, List.set_cons_zero,
    List.append_assoc]
  rfl

theorem takeOperation_of_not_returns {task : Nat} (hg : s.scheduler.slab.get qt = some task) (hr : ¬ s.Returns qt) :
    s.takeOperation qt = none := by
  unfold takeOperation
  split
  next => rfl
  next task' scheduler htake =>
    have hdropped : (s.scheduler.status qt).dropped = false := by
      cases hd : (s.scheduler.status qt).dropped with
      | false => rfl
      | true =>
        rw [s.sane.takeRaw_dropped hg hd] at htake
        cases htake
    obtain ⟨s', htake', -⟩ := s.sane.takeRaw_eq hg hdropped
    obtain ⟨rfl, -⟩ := Prod.mk.inj (Option.some.inj (htake'.symm.trans htake))
    have hnone : ¬ (s.outcome qt).isSome = true := fun ho => hr ⟨hdropped, ho⟩
    rw [outcome, hg] at hnone
    cases hop : s.operations task with
    | tcp qd newQd qr => exact absurd (by rw [Option.bind_eq_bind, Option.bind_some, hop]; rfl) hnone
    | udp qd qr => exact absurd (by rw [Option.bind_eq_bind, Option.bind_some, hop]; rfl) hnone
    | background => rfl

theorem releaseFailed_scheduler (s : InetStack) (newQd : Option QDesc) (qr : OperationResult) :
    (s.releaseFailed newQd qr).scheduler = s.scheduler ∧ (s.releaseFailed newQd qr).operations = s.operations := by
  cases qr with
  | failed e => exact ⟨rfl, rfl⟩
  | connect => exact ⟨rfl, rfl⟩
  | accept newQd => exact ⟨rfl, rfl⟩
  | push => exact ⟨rfl, rfl⟩
  | pop addr buf => exact ⟨rfl, rfl⟩

/-- One operation leaves the scheduler. -/
theorem takeOperation_of_returns (hr : s.Returns qt) : ∃ o s', s.outcome qt = some o ∧
    s.takeOperation qt = some (o, s') ∧
    (∀ k, s'.scheduler.slab.get k = if k = qt then none else s.scheduler.slab.get k) ∧
    (∀ k, s'.scheduler.status k = if k = qt then .clear else s.scheduler.status k) ∧ s'.operations = s.operations := by
  obtain ⟨hdropped, hsome⟩ := hr
  obtain ⟨o, ho⟩ := Option.isSome_iff_exists.mp hsome
  have ho' := ho
  obtain ⟨task, hg, hop⟩ := Option.bind_eq_some_iff.mp ho'
  obtain ⟨scheduler, htake, hget, hstatus⟩ := s.sane.takeRaw_eq hg hdropped
  refine ⟨o, ?_⟩
  unfold takeOperation
  split
  next h => rw [htake] at h; cases h
  next task' scheduler' h =>
    obtain ⟨rfl, rfl⟩ := Prod.mk.inj (Option.some.inj (htake.symm.trans h))
    cases hopt : s.operations task with
    | tcp qd newQd qr =>
      rw [hopt] at hop
      obtain rfl := Option.some.inj hop
      refine ⟨_, ho, rfl, ?_⟩
      obtain ⟨hsched, hops⟩ := releaseFailed_scheduler
        { s with scheduler := scheduler, sane := s.sane.takeRaw h } newQd qr
      rw [hsched, hops]
      exact ⟨hget, hstatus, rfl⟩
    | udp qd qr =>
      rw [hopt] at hop
      obtain rfl := Option.some.inj hop
      exact ⟨_, ho, rfl, hget, hstatus, rfl⟩
    | background =>
      rw [hopt] at hop
      cases hop

theorem takes_nil : Takes pack s s [] w w [] where
  places := List.nil_sublist _
  once := List.nodup_nil
  ready := fun t h => (by cases h)
  fits := ⟨Nat.zero_le _, Nat.zero_le _⟩
  qrs := ⟨[], rfl, rfl⟩
  indices := rfl
  gone := fun t h => (by cases h)
  stay := fun k _ => ⟨rfl, rfl⟩
  operations := rfl

namespace Takes

variable {taken : List (QToken × Nat)} {s'' : InetStack}

theorem length_qrs (h : Takes pack s s' before w w' taken) : w'.qrs.length = w.qrs.length := by
  obtain ⟨rs, hrs, hqrs⟩ := h.qrs
  have hlen := congrArg List.length hrs
  rw [List.length_map, List.length_map] at hlen
  have hfits := h.fits.1
  rw [hqrs, List.length_append, List.length_drop]
  omega

theorem length_indices (h : Takes pack s s' before w w' taken) : w'.indices.length = w.indices.length := by
  have hfits := h.fits.2
  rw [h.indices, List.length_append, List.length_map, List.length_drop]
  omega

/-- More tokens, with nothing taken for them. -/
theorem more (h : Takes pack s s' before w w' taken) (qts : List QToken) :
    Takes pack s s' (before ++ qts) w w' taken where
  places := by
    rw [List.zipIdx_append]
    exact h.places.trans (List.sublist_append_left _ _)
  once := h.once
  ready := h.ready
  fits := h.fits
  qrs := h.qrs
  indices := h.indices
  gone := h.gone
  stay := h.stay
  operations := h.operations

theorem outcome_eq (h : Takes pack s s' before w w' taken) (hqt : qt ∉ taken.map Prod.fst) :
    s'.outcome qt = s.outcome qt := by
  unfold outcome
  rw [(h.stay qt hqt).1, h.operations]

theorem returns_iff (h : Takes pack s s' before w w' taken) (hqt : qt ∉ taken.map Prod.fst) :
    s'.Returns qt ↔ s.Returns qt := by
  rw [Returns, Returns, (h.stay qt hqt).2, h.outcome_eq hqt]

/-- One more operation, its token at the next place. -/
theorem next {o : QDesc × OperationResult} (h : Takes pack s s' before w w' taken) (hqt : qt ∉ taken.map Prod.fst)
    (hready : s.ready qt = true) (ho : s.outcome qt = some o)
    (hroom : taken.length < w.qrs.length ∧ taken.length < w.indices.length)
    (hget : ∀ k, s''.scheduler.slab.get k = if k = qt then none else s'.scheduler.slab.get k)
    (hstatus : ∀ k, s''.scheduler.status k = if k = qt then .clear else s'.scheduler.status k)
    (hops : s''.operations = s'.operations) :
    Takes pack s s'' (before ++ [qt]) w
      ⟨w'.qrs.set taken.length (pack o.1 o.2 qt), w'.indices.set taken.length before.length⟩
      (taken ++ [(qt, before.length)]) where
  places := by
    rw [List.zipIdx_append, List.zipIdx_singleton, Nat.zero_add]
    exact List.Sublist.append h.places (List.Sublist.refl _)
  once := by
    rw [List.map_append]
    exact List.Nodup.append h.once (List.nodup_singleton _) (by simpa using hqt)
  ready := fun t ht => by
    rcases List.mem_append.mp ht with ht | ht
    · exact h.ready t ht
    · rw [List.mem_singleton.mp ht]
      exact hready
  fits := by
    rw [List.length_append]
    exact hroom
  qrs := by
    obtain ⟨rs, hrs, hqrs⟩ := h.qrs
    have hlen : rs.length = taken.length := by simpa using congrArg List.length hrs
    refine ⟨rs ++ [pack o.1 o.2 qt], ?_, ?_⟩
    · rw [List.map_append, List.map_append, hrs, List.map_singleton, List.map_singleton, ho]
      rfl
    · rw [List.length_append, ← hlen, hqrs, ← hlen]
      exact set_append_drop rs w.qrs _ (hlen ▸ hroom.1)
  indices := by
    have hlen : (taken.map Prod.snd).length = taken.length := List.length_map _
    rw [List.map_append, List.length_append, ← hlen, h.indices, ← hlen]
    exact set_append_drop (taken.map Prod.snd) w.indices _ (hlen ▸ hroom.2)
  gone := fun t ht => by
    rw [hget]
    split
    next => rfl
    next hne =>
      rcases List.mem_append.mp ht with ht | ht
      · exact h.gone t ht
      · exact absurd (congrArg Prod.fst (List.mem_singleton.mp ht)) hne
  stay := fun k hk => by
    rw [List.map_append, List.mem_append, not_or] at hk
    have hne : k ≠ qt := fun he => hk.2 (by simp [he])
    rw [hget, hstatus, if_neg hne, if_neg hne]
    exact h.stay k hk.1
  operations := hops.trans h.operations

theorem get_eq_none (h : Takes pack s s' before w w' taken) :
    s'.scheduler.slab.get qt = none ↔ qt ∈ taken.map Prod.fst ∨ s.scheduler.slab.get qt = none := by
  by_cases hqt : qt ∈ taken.map Prod.fst
  · obtain ⟨t, ht, rfl⟩ := List.mem_map.mp hqt
    exact iff_of_true (h.gone t ht) (Or.inl hqt)
  · rw [(h.stay qt hqt).1, or_iff_right hqt]

end Takes

/-- An error is lossless when nothing was taken, and a count always is. -/
theorem lossless_error {e : Fail} {taken : List (QToken × Nat)} (h : Takes pack s s' qts w w' taken) :
    Lossless pack s qts w (.error e) s' w' ↔ taken = [] := by
  constructor
  · rintro ⟨taken', ht, -, herr⟩
    rw [herr e rfl] at ht
    cases taken with
    | nil => rfl
    | cons t taken =>
      -- Its operation would be there and gone at once.
      have hget := (ht.stay t.1 (by simp)).1
      rw [h.gone t List.mem_cons_self] at hget
      have hready := h.ready t List.mem_cons_self
      unfold InetStack.ready at hready
      rw [← hget] at hready
      cases hready
  · rintro rfl
    exact ⟨[], h, fun n hn => (by cases hn), fun e _ => rfl⟩

theorem lossless_ok {taken : List (QToken × Nat)} (h : Takes pack s s' qts w w' taken) :
    Lossless pack s qts w (.ok taken.length) s' w' :=
  ⟨taken, h, fun n hn => Except.ok.inj hn, fun e he => (by cases he)⟩

theorem ready_of_get {task : Nat} (hg : s.scheduler.slab.get qt = some task) :
    s.ready qt = s.scheduler.hasCompleted qt := by
  rw [ready, hg, Option.isSome_some, Bool.true_and]

theorem scan_cons_full {i completed : Nat} (h : bounded = true ∧ completed = w.qrs.length) :
    scan bounded pack i completed (qt :: qts) s w = some (.ok completed, s, w) := by
  rw [scan, if_pos h]

theorem scan_cons_invalid {i completed : Nat} (h : ¬ (bounded = true ∧ completed = w.qrs.length))
    (hg : s.scheduler.slab.get qt = none) :
    scan bounded pack i completed (qt :: qts) s w = some (.error ⟨.EINVAL, "invalid queue token"⟩, s, w) := by
  rw [scan, if_neg h, s.sane.fromRawHandle, hg]
  rfl

theorem scan_cons_pending {i completed task : Nat} (h : ¬ (bounded = true ∧ completed = w.qrs.length))
    (hg : s.scheduler.slab.get qt = some task) (hc : s.scheduler.hasCompleted qt = false) :
    scan bounded pack i completed (qt :: qts) s w = scan bounded pack (i + 1) completed qts s w := by
  rw [scan, if_neg h, s.sane.fromRawHandle, hg]
  show (if s.scheduler.hasCompleted qt = true then _ else _) = _
  rw [hc, if_neg Bool.false_ne_true]

theorem scan_cons_completed {i completed task : Nat} (h : ¬ (bounded = true ∧ completed = w.qrs.length))
    (hg : s.scheduler.slab.get qt = some task) (hc : s.scheduler.hasCompleted qt = true) :
    scan bounded pack i completed (qt :: qts) s w = (s.takeOperation qt).bind fun t =>
      (w.store completed (pack t.1.1 t.1.2 qt) i).bind fun w =>
        scan bounded pack (i + 1) (completed + 1) qts t.2 w := by
  rw [scan, if_neg h, s.sane.fromRawHandle, hg]
  show (if s.scheduler.hasCompleted qt = true then _ else _) = _
  rw [if_pos hc]
  rfl

namespace Takes

theorem scan_pending {task : Nat} (h : Takes pack s s' before w w' (s.takenOf before))
    (hroom : ¬ (bounded = true ∧ (s.takenOf before).length = w'.qrs.length))
    (hg : s'.scheduler.slab.get qt = some task) (hready : s.ready qt = false)
    (hc : s'.scheduler.hasCompleted qt = false) :
    scan bounded pack before.length (s.takenOf before).length (qt :: qts) s' w' =
        scan bounded pack (before ++ [qt]).length (s.takenOf (before ++ [qt])).length qts s' w' ∧
      Takes pack s s' (before ++ [qt]) w w' (s.takenOf (before ++ [qt])) := by
  have htaken : s.takenOf (before ++ [qt]) = s.takenOf before := by
    rw [takenOf_append, hready, if_neg Bool.false_ne_true, List.append_nil]
  rw [htaken, List.length_append, scan_cons_pending hroom hg hc]
  exact ⟨rfl, h.more [qt]⟩

/-- An invalid token is lossless when no operation was completed before it. -/
theorem scan_invalid (h : Takes pack s s' before w w' (s.takenOf before))
    (hroom : ¬ (bounded = true ∧ (s.takenOf before).length = w'.qrs.length))
    (hg : s'.scheduler.slab.get qt = none) :
    (∃ r s'' w'', scan bounded pack before.length (s.takenOf before).length (qt :: qts) s' w' = some (r, s'', w'') ∧
      Lossless pack s (before ++ qt :: qts) w r s'' w'') ↔ before.filter s.ready = [] := by
  rw [← List.length_eq_zero_iff, ← length_takenOf, List.length_eq_zero_iff, scan_cons_invalid hroom hg]
  constructor
  · rintro ⟨r, s'', w'', he, hl⟩
    cases he
    exact (lossless_error (h.more (qt :: qts))).mp hl
  · exact fun hnil => ⟨_, _, _, rfl, (lossless_error (h.more (qt :: qts))).mpr hnil⟩

/-- A completed operation is taken when its result can be had and there is room for it. -/
theorem scan_completed {task : Nat} (h : Takes pack s s' before w w' (s.takenOf before))
    (hroom : ¬ (bounded = true ∧ (s.takenOf before).length = w'.qrs.length))
    (hqt : qt ∉ (s.takenOf before).map Prod.fst) (hg : s'.scheduler.slab.get qt = some task) (hready : s.ready qt = true)
    (hc : s'.scheduler.hasCompleted qt = true) (hr : s.Returns qt)
    (hfit : (s.takenOf before).length < w.qrs.length ∧ (s.takenOf before).length < w.indices.length) :
    ∃ s'' w'', scan bounded pack before.length (s.takenOf before).length (qt :: qts) s' w' =
        scan bounded pack (before ++ [qt]).length (s.takenOf (before ++ [qt])).length qts s'' w'' ∧
      Takes pack s s'' (before ++ [qt]) w w'' (s.takenOf (before ++ [qt])) := by
  rw [← h.returns_iff hqt] at hr
  obtain ⟨o, s'', ho, htake, hget, hstatus, hops⟩ := takeOperation_of_returns hr
  rw [h.outcome_eq hqt] at ho
  have htaken : s.takenOf (before ++ [qt]) = s.takenOf before ++ [(qt, before.length)] := by
    rw [takenOf_append, hready, if_pos rfl]
  refine ⟨s'', _, ?_, htaken ▸ h.next hqt hready ho hfit hget hstatus hops⟩
  rw [scan_cons_completed hroom hg hc, htake, Option.bind_some, Slots.store, h.length_qrs, h.length_indices,
    if_pos hfit, htaken, List.length_append, List.length_append]
  rfl

theorem scan_stuck {task : Nat} (h : Takes pack s s' before w w' (s.takenOf before))
    (hroom : ¬ (bounded = true ∧ (s.takenOf before).length = w'.qrs.length))
    (hqt : qt ∉ (s.takenOf before).map Prod.fst) (hg : s'.scheduler.slab.get qt = some task) (hc : s'.scheduler.hasCompleted qt = true)
    (hcannot : ¬ (s.Returns qt ∧ (s.takenOf before).length < w.qrs.length ∧
      (s.takenOf before).length < w.indices.length)) :
    scan bounded pack before.length (s.takenOf before).length (qt :: qts) s' w' = none := by
  rw [scan_cons_completed hroom hg hc]
  by_cases hr : s'.Returns qt
  · obtain ⟨o, s'', -, htake, -⟩ := takeOperation_of_returns hr
    rw [h.returns_iff hqt] at hr
    rw [htake, Option.bind_some, Slots.store, h.length_qrs, h.length_indices, if_neg fun hfit => hcannot ⟨hr, hfit⟩,
      Option.bind_none]
  · rw [takeOperation_of_not_returns hg hr, Option.bind_none]

end Takes

/-- From any place on, the loop loses nothing exactly when the tokens that it still gets to are fine. -/
theorem scan_lossless_iff (h : Takes pack s s' before w w' (s.takenOf before)) :
    (∃ r s'' w'', scan bounded pack before.length (s.takenOf before).length qts s' w' = some (r, s'', w'') ∧
      Lossless pack s (before ++ qts) w r s'' w'') ↔ FineAfter bounded s w before qts := by
  induction qts generalizing before s' w' with
  | nil => exact iff_of_true ⟨_, _, _, rfl, lossless_ok (h.more [])⟩ fineAfter_nil
  | cons qt qts ih =>
    have hlen := length_takenOf s before
    by_cases hfull : bounded = true ∧ (s.takenOf before).length = w'.qrs.length
    · obtain ⟨rfl, hfull⟩ := hfull
      rw [scan_cons_full ⟨rfl, hfull⟩]
      rw [h.length_qrs] at hfull
      exact iff_of_true ⟨_, _, _, rfl, lossless_ok (h.more _)⟩ (fineAfter_of_full (by omega))
    · have hroom : bounded = true → (before.filter s.ready).length < w.qrs.length := by
        intro hb
        have hfits := h.fits.1
        have hne : ¬ (s.takenOf before).length = w.qrs.length := fun he => hfull ⟨hb, he.trans h.length_qrs.symm⟩
        omega
      cases hg : s'.scheduler.slab.get qt with
      | none =>
        rw [h.scan_invalid hfull hg]
        by_cases hqt : qt ∈ (s.takenOf before).map Prod.fst
        · -- The token came before and its operation was taken then.
          obtain ⟨hmem, hready⟩ := mem_takenOf.mp hqt
          refine iff_of_false (fun hnil => ?_) fun hfine => ((fineAfter_cons.mp hfine).1 hroom).2 hready |>.1 hmem
          exact List.filter_eq_nil_iff.mp hnil qt hmem hready
        · exact (fineAfter_cons_invalid hroom ((h.get_eq_none.mp hg).resolve_left hqt)).symm
      | some task =>
        have hqt : qt ∉ (s.takenOf before).map Prod.fst := by
          intro hmem
          rw [h.get_eq_none.mpr (Or.inl hmem)] at hg
          cases hg
        obtain ⟨hget, hstatus⟩ := h.stay qt hqt
        have hs : s.scheduler.slab.get qt = some task := hget.symm.trans hg
        have hready : s.ready qt = s'.scheduler.hasCompleted qt := by
          rw [ready_of_get hs, Scheduler.hasCompleted, Scheduler.hasCompleted, hstatus]
        have hplace : before ++ qt :: qts = (before ++ [qt]) ++ qts := List.append_cons before qt qts
        cases hc : s'.scheduler.hasCompleted qt with
        | false =>
          rw [hc] at hready
          obtain ⟨hscan, hnext⟩ := h.scan_pending hfull hg hready hc
          rw [fineAfter_cons_pending hs hready, hscan, hplace]
          exact ih hnext
        | true =>
          rw [hc] at hready
          have hnew : qt ∉ before := fun hmem => hqt (mem_takenOf.mpr ⟨hmem, hready⟩)
          rw [fineAfter_cons_completed hroom hs hready, and_iff_right hnew, ← hlen]
          by_cases hcan : s.Returns qt ∧ (s.takenOf before).length < w.qrs.length ∧
              (s.takenOf before).length < w.indices.length
          · obtain ⟨s'', w'', hscan, hnext⟩ := h.scan_completed hfull hqt hg hready hc hcan.1 hcan.2
            rw [and_iff_right hcan, hscan, hplace]
            exact ih hnext
          · rw [h.scan_stuck hfull hqt hg hc hcan]
            refine iff_of_false ?_ fun hfine => hcan hfine.1
            rintro ⟨r, s'', w'', he, -⟩
            cases he

theorem scan_lossless_iff_fine : (∃ r s' w', scan bounded pack 0 0 qts s w = some (r, s', w') ∧
    Lossless pack s qts w r s' w') ↔ s.Fine bounded qts w :=
  @scan_lossless_iff R bounded pack s s w w [] qts takes_nil

/-- The count only grows, and when it has not nothing has happened. -/
theorem scan_ok {i completed n : Nat} (h : scan bounded pack i completed qts s w = some (.ok n, s', w')) :
    completed ≤ n ∧ (n = completed → s' = s ∧ w' = w) := by
  induction qts generalizing i completed s w with
  | nil =>
    cases h
    exact ⟨Nat.le_refl _, fun _ => ⟨rfl, rfl⟩⟩
  | cons qt qts ih =>
    by_cases hfull : bounded = true ∧ completed = w.qrs.length
    · rw [scan_cons_full hfull] at h
      cases h
      exact ⟨Nat.le_refl _, fun _ => ⟨rfl, rfl⟩⟩
    · cases hg : s.scheduler.slab.get qt with
      | none =>
        rw [scan_cons_invalid hfull hg] at h
        cases h
      | some task =>
        cases hc : s.scheduler.hasCompleted qt with
        | false =>
          rw [scan_cons_pending hfull hg hc] at h
          exact ih h
        | true =>
          rw [scan_cons_completed hfull hg hc] at h
          obtain ⟨o, -, h⟩ := Option.bind_eq_some_iff.mp h
          obtain ⟨w₁, -, h⟩ := Option.bind_eq_some_iff.mp h
          have hle := (ih h).1
          exact ⟨by omega, fun he => (by omega)⟩

theorem waitLoop_cons {turn : Turn} {turns : List Turn} (hpoll : turn.pollBgWork s = some s') :
    waitLoop pack qts (turn :: turns) s w = (scan true pack 0 0 qts s' w).bind fun r =>
      match r.1 with
      | .error e => some (.returned (.error e) r.2.1 r.2.2)
      | .ok completed =>
        if completed > 0 then some (.returned (.ok completed) r.2.1 r.2.2)
        else if turn.elapsed then some (.returned (.ok 0) r.2.1 r.2.2)
        else waitLoop pack qts turns r.2.1 r.2.2 := by
  rw [waitLoop, hpoll]
  rfl

/-- While a call waits, the stack is as the background work leaves it and nothing has been written. -/
theorem waitLoop_waiting {turns : List Turn} (h : waitLoop pack qts turns s w = some (.waiting s' w')) :
    turns.foldlM (fun s turn => turn.pollBgWork s) s = some s' ∧ w' = w ∧
      ∀ more, waitLoop pack qts (turns ++ more) s w = waitLoop pack qts more s' w' := by
  induction turns generalizing s w with
  | nil =>
    cases h
    exact ⟨rfl, rfl, fun more => rfl⟩
  | cons turn turns ih =>
    cases hpoll : turn.pollBgWork s with
    | none =>
      rw [waitLoop, hpoll] at h
      cases h
    | some s₁ =>
      rw [waitLoop_cons hpoll] at h
      obtain ⟨⟨result, s₂, w₂⟩, hscan, hrest⟩ := Option.bind_eq_some_iff.mp h
      cases result with
      | error e => cases hrest
      | ok n =>
        by_cases hpos : n > 0
        · simp only [if_pos hpos] at hrest
          cases hrest
        · cases helapsed : turn.elapsed with
          | true =>
            simp only [if_neg hpos, helapsed] at hrest
            cases hrest
          | false =>
            simp only [if_neg hpos, helapsed, Bool.false_eq_true, if_false] at hrest
            obtain ⟨rfl, rfl⟩ := (scan_ok hscan).2 (by omega)
            obtain ⟨hfold, hw, happend⟩ := ih hrest
            refine ⟨?_, hw, fun more => ?_⟩
            · rw [List.foldlM_cons, hpoll]
              exact hfold
            · rw [List.cons_append, waitLoop_cons hpoll, hscan, Option.bind_some]
              simp only [if_neg hpos, helapsed, Bool.false_eq_true, if_false]
              exact happend more

/-- In one turn a call delivers what the loop over the tokens does. -/
theorem waitLoop_turn_iff {turn : Turn} (hpoll : turn.pollBgWork s = some s') :
    (∃ o, waitLoop pack qts [turn] s w = some o ∧ Delivers pack s' qts w o) ↔ s'.Fine true qts w := by
  rw [← @scan_lossless_iff_fine R true pack s' w qts, waitLoop_cons hpoll]
  cases scan true pack 0 0 qts s' w with
  | none =>
    refine iff_of_false ?_ ?_
    · rintro ⟨o, ho, -⟩
      cases ho
    · rintro ⟨r, s₁, w₁, hr, -⟩
      cases hr
  | some r =>
    obtain ⟨result, s₁, w₁⟩ := r
    have hone : (∃ r s'' w'', some (result, s₁, w₁) = some (r, s'', w'') ∧ Lossless pack s' qts w r s'' w'') ↔
        Lossless pack s' qts w result s₁ w₁ := by
      constructor
      · rintro ⟨r, s'', w'', he, hl⟩
        cases he
        exact hl
      · exact fun hl => ⟨_, _, _, rfl, hl⟩
    rw [hone, Option.bind_some]
    cases result with
    | error e => simp [Delivers]
    | ok n =>
      by_cases hpos : n > 0
      · simp [Delivers, hpos]
      · obtain rfl : n = 0 := by omega
        cases helapsed : turn.elapsed with
        | true => simp [Delivers]
        | false => simp [Delivers, waitLoop]

theorem waitLoop_delivers {turns : List Turn} {turn : Turn} {s₁ s₂ : InetStack} {w₁ : Slots R}
    (hwait : waitLoop pack qts turns s w = some (.waiting s₁ w₁)) (hpoll : turn.pollBgWork s₁ = some s₂) :
    (w₁ = w ∧ turns.foldlM (fun s turn => turn.pollBgWork s) s = some s₁) ∧
      ((∃ o, waitLoop pack qts (turns ++ [turn]) s w = some o ∧ Delivers pack s₂ qts w o) ↔ s₂.Fine true qts w) := by
  obtain ⟨hfold, rfl, happend⟩ := waitLoop_waiting hwait
  rw [happend]
  exact ⟨⟨rfl, hfold⟩, waitLoop_turn_iff hpoll⟩

/-- A call that has waited so far has left the arrays as they were, and the stack as its background work makes it. In
its next turn it loses nothing exactly when the tokens are fine for the stack after that turn's background work. -/
theorem waits_deliver (packResult : OperationResult → QDesc → QToken → R) (qts : List QToken) (turns : List Turn)
    (turn : Turn) (s s₁ s₂ : InetStack) (hpoll : turn.pollBgWork s₁ = some s₂) :
    (∀ w w₁ : Slots (QDesc × OperationResult), waitAny2 qts turns s w = some (.waiting s₁ w₁) →
      (w₁ = w ∧ turns.foldlM (fun s turn => turn.pollBgWork s) s = some s₁) ∧
        ((∃ o, waitAny2 qts (turns ++ [turn]) s w = some o ∧ Delivers (fun qd r _ => (qd, r)) s₂ qts w o) ↔
          s₂.Fine true qts w)) ∧
    (∀ w w₁ : Slots R, waitAny packResult qts turns s w = some (.waiting s₁ w₁) →
      (w₁ = w ∧ turns.foldlM (fun s turn => turn.pollBgWork s) s = some s₁) ∧
        ((∃ o, waitAny packResult qts (turns ++ [turn]) s w = some o ∧
          Delivers (fun qd r qt => packResult r qd qt) s₂ qts w o) ↔ s₂.Fine true qts w)) ∧
    ∀ w : Slots (QDesc × OperationResult), (∃ r s' w', waitAnyNonblocking2 qts turn.pollBgWork s₁ w = some (r, s', w') ∧
      Lossless (fun qd r _ => (qd, r)) s₂ qts w r s' w') ↔ s₂.Fine false qts w := by
  refine ⟨fun w w₁ hwait => waitLoop_delivers hwait hpoll, fun w w₁ hwait => waitLoop_delivers hwait hpoll, fun w => ?_⟩
  rw [← scan_lossless_iff_fine, waitAnyNonblocking2, hpoll]
  rfl

/-- `poll_bg_work` when no frame has come. -/
def pollScheduler (behave : Nat → Behaviour) (s : InetStack) : Option InetStack :=
  match h : s.scheduler.poll behave with
  | none => none
  | some scheduler => some { s with scheduler, sane := s.sane.poll h }

def sampleTurn : Turn := ⟨pollScheduler fun _ => ⟨[], true, []⟩, false⟩

def sampleScheduler : Scheduler := (Runs.run Scheduler.step .new [.call .insert, .call .insert]).get (by decide)

/-- Two pushes that complete when they are polled. -/
def sampleStack : InetStack where
  scheduler := sampleScheduler
  sane := Scheduler.sane_of_run (Option.some_get _).symm
  operations := fun _ => .tcp 3 none .push
  fileTable := ∅

def polledStack : InetStack := (sampleTurn.pollBgWork sampleStack).get (by decide)

def sampleSlots (n : Nat) : Slots (QDesc × OperationResult) := ⟨List.replicate n (0, .connect), List.replicate n 0⟩

theorem polledStack_eq : sampleTurn.pollBgWork sampleStack = some polledStack := (Option.some_get _).symm

theorem polledStack_fine : polledStack.Fine true [0, 1] (sampleSlots 2) := by
  have hfirst : polledStack.scheduler.slab.get 0 = some 0 := by decide +kernel
  have hsecond : polledStack.scheduler.slab.get 1 = some 1 := by decide +kernel
  refine (fineAfter_cons_completed (fun _ => by decide +kernel) hfirst (by decide +kernel)).mpr ⟨?_, ?_⟩
  · exact ⟨List.not_mem_nil, ⟨by decide +kernel, by decide +kernel⟩, by decide +kernel, by decide +kernel⟩
  · refine (fineAfter_cons_completed (fun _ => by decide +kernel) hsecond (by decide +kernel)).mpr ⟨?_, fineAfter_nil⟩
    exact ⟨by decide, ⟨by decide +kernel, by decide +kernel⟩, by decide +kernel, by decide +kernel⟩

theorem waits_deliver_sample : ∃ o, waitAny2 [0, 1] [⟨some, false⟩, sampleTurn] sampleStack (sampleSlots 2) = some o ∧
    Delivers (fun qd r _ => (qd, r)) polledStack [0, 1] (sampleSlots 2) o :=
  ((waits_deliver (fun r qd qt => (r, qd, qt)) [0, 1] [⟨some, false⟩] sampleTurn sampleStack sampleStack polledStack
    polledStack_eq).1 (sampleSlots 2) (sampleSlots 2) rfl).2.mpr polledStack_fine

/-- The operation of token 0 is gone when the call fails for token 7, and there is a panic when there is one place for
two results. -/
theorem invalidToken_loses : (¬ ∃ o, waitAny2 [0, 7] [sampleTurn] sampleStack (sampleSlots 2) = some o ∧
      Delivers (fun qd r _ => (qd, r)) polledStack [0, 7] (sampleSlots 2) o) ∧
    ¬ ∃ r s w, waitAnyNonblocking2 [0, 1] sampleTurn.pollBgWork sampleStack (sampleSlots 1) = some (r, s, w) ∧
      Lossless (fun qd r _ => (qd, r)) polledStack [0, 1] (sampleSlots 1) r s w := by
  constructor
  · intro h
    have hfine := (waitLoop_turn_iff polledStack_eq).mp h
    have hready : [0].filter polledStack.ready = [] :=
      (hfine 1 7 rfl (by decide +kernel) (by decide +kernel)).1 (by decide +kernel)
    exact absurd hready (by decide +kernel)
  · rintro ⟨r, s, w, h, -⟩
    have hnone : (waitAnyNonblocking2 [0, 1] sampleTurn.pollBgWork sampleStack (sampleSlots 1)).isSome = false := by
      decide +kernel
    rw [h] at hnone
    cases hnone

end InetStack

end Capybara
