import UsbipDevirt.Locking
import UsbipDevirt.Replies
import UsbipDevirt.Senders

/-!
# The bridge does not deadlock

Whoever is in the scope of SharedState or `bridge.pending` can go on, the reader
thread waits for nothing but these two and the socket, and no thread holds one of
them across a socket write. So the reader thread takes in what has arrived while a
call is stuck in its write.
-/

namespace UsbipDevirt

open Transition Locks

namespace Split

theorem takeResponse_eq_none {s : Split} (busy : ∀ result, s.reader ≠ .returned result) :
    s.takeResponse = none := by
  unfold takeResponse
  split
  · next result returned => exact absurd returned (busy result)
  · rfl

/-- `recv` waits at the socket only while the server can still send. -/
theorem open_of_stuck {s : Split} (position : s.reader = .header ∨
    ∃ header direction, s.reader = .payload header direction)
    (stuck : s.readerStep = none) : s.closed = none := by
  rcases position with pc | ⟨header, direction, pc⟩
  · simp only [readerStep, pc] at stuck
    split at stuck
    · split at stuck <;> cases stuck
    · simpa using stuck
  · simp only [readerStep, pc] at stuck
    split at stuck
    · split at stuck
      · cases stuck
      · simpa using stuck
    · cases stuck

end Split

namespace Bridge

/-! ## Who can go on -/

theorem exists_lookup_of_ne_empty {b : Bridge} (entries : b.pending ≠ ∅) :
    ∃ k tx, b.pending.lookup k = some tx := by
  by_contra none
  apply entries
  apply Finmap.ext_lookup
  intro k
  rw [Finmap.lookup_empty]
  cases h : b.pending.lookup k with
  | none => rfl
  | some tx => exact absurd ⟨k, tx, h⟩ none

theorem readerStep_receiving {b : Bridge} (pc : b.reader = .receiving)
    (busy : ∀ result, b.split.reader ≠ .returned result) :
    b.readerStep = b.split.readerStep.map fun split => { b with split } := by
  have waiting := Split.takeResponse_eq_none busy
  cases step : b.split.readerStep <;> simp only [readerStep, pc, waiting, step]

theorem Scopes.shared_enabled {b : Bridge} (h : b.Scopes) {t : Thread}
    (held : b.holder .shared = some t) : b.Enabled t := by
  cases t with
  | call c =>
    obtain ⟨pc, inside⟩ := h.shared_call held
    intro fates
    cases hw : b.split.writer <;> simp [hw, WriterPc.inShared] at inside <;>
      simp [callStep, pc, Split.collect, Split.writerStep, hw]
  | reader =>
    obtain ⟨pc, inside⟩ := h.shared_reader held
    left
    cases hr : b.split.reader with
    | removeSubmit header =>
      rw [readerStep_receiving pc (by simp [hr]), Option.isSome_map]
      simp only [Split.readerStep, hr]
      split <;> rfl
    | removeUnlink header =>
      rw [readerStep_receiving pc (by simp [hr]), Option.isSome_map]
      simp only [Split.readerStep, hr]
      rfl
    | _ => simp [hr, ReaderPc.inShared] at inside

theorem reader_remove_enabled {b : Bridge} {ret : RetSubmit} (pc : b.reader = .remove ret) :
    b.readerStep.isSome := by
  simp only [readerStep, pc]
  split <;> rfl

theorem Fresh.draining_enabled {b : Bridge} (f : b.Fresh) (pc : b.reader = .draining) :
    b.Enabled .reader := by
  by_cases empty : b.pending = ∅
  · left
    simp [readerStep, pc, empty]
  · right
    obtain ⟨k, tx, lookup⟩ := exists_lookup_of_ne_empty empty
    refine ⟨k, ?_⟩
    simp only [drainStep, pc, lookup, f.send_some (.inl ⟨k, lookup⟩)]
    rfl

theorem Scopes.pending_enabled {b : Bridge} (h : b.Scopes) (f : b.Fresh) {t : Thread}
    (held : b.holder .pending = some t) : b.Enabled t := by
  cases t with
  | call c =>
    obtain ⟨seqnum, pc⟩ := h.pending_call held
    intro fates
    simp [callStep, pc]
  | reader =>
    rcases h.pending_reader held with ⟨ret, pc⟩ | pc
    · exact .inl (reader_remove_enabled pc)
    · exact f.draining_enabled pc

/-- The mutex is free, or its holder can go on. -/
theorem Scopes.inner_enabled {b : Bridge} (h : b.Scopes) (f : b.Fresh) {m : Mutex}
    (inner : m ≠ .writer) {t : Thread} (held : b.holder m = some t) : b.Enabled t := by
  cases m with
  | writer => exact absurd rfl inner
  | shared => exact h.shared_enabled held
  | pending => exact h.pending_enabled f held

theorem Scopes.shared_held {b : Bridge} (h : b.Scopes) (locked : b.split.lock ≠ none) :
    ∃ t, b.holder .shared = some t := by
  obtain ⟨half, hl⟩ := Option.ne_none_iff_exists'.mp locked
  cases half with
  | reader => exact ⟨.reader, holder_shared.mpr (.inr ⟨hl, rfl⟩)⟩
  | writer =>
    have inside : b.split.writer.inShared = true := (h.shared .writer).mp hl
    obtain ⟨c, sending⟩ := h.busy.mp (WriterPc.busy_of_inShared inside)
    have owner := h.owner (c := c) (by simp [sending, CallPc.guarded])
    exact ⟨.call c, holder_shared.mpr (.inl ⟨hl, c, rfl, owner⟩)⟩

theorem pending_held {b : Bridge} (locked : b.pendingLock ≠ none) :
    ∃ t, b.holder .pending = some t := by
  obtain ⟨holder, hl⟩ := Option.ne_none_iff_exists'.mp locked
  cases holder with
  | call c => exact ⟨.call c, holder_pending.mpr (.inl ⟨c, rfl, hl⟩)⟩
  | reader => exact ⟨.reader, holder_pending.mpr (.inr ⟨rfl, hl⟩)⟩

/-- The thread waits for a mutex whose holder can go on. -/
def Behind (b : Bridge) (t : Thread) : Prop :=
  ∃ m u, m ≠ .writer ∧ b.wants t = some m ∧ b.holder m = some u ∧ b.Enabled u

theorem Scopes.behind {b : Bridge} (h : b.Scopes) (f : b.Fresh) {t u : Thread} {m : Mutex}
    (inner : m ≠ .writer) (waits : b.wants t = some m) (held : b.holder m = some u) :
    b.Behind t := ⟨m, u, inner, waits, held, h.inner_enabled f inner held⟩

/-- Whoever holds the writer mutex can go on, or waits for someone who can. -/
theorem Scopes.writer_enabled {b : Bridge} (h : b.Scopes) (f : b.Fresh) {c : CallId}
    (owner : b.writer = some c) : b.Enabled (.call c) ∨ b.Behind (.call c) := by
  have guarded : (b.calls c).pc.guarded = true := (h.writer c).mp owner
  cases hpc : (b.calls c).pc with
  | sendSubmit =>
    left
    intro fates
    have idle := h.idle c hpc
    cases halloc : allocSeqnum b.split.build b.split.nextSeqnum <;>
      simp [callStep, hpc, Split.call, idle, halloc]
  | sending =>
    have busy := h.busy.mpr ⟨c, hpc⟩
    by_cases waits : b.split.writer.waits = true
    · have wants : b.wants (.call c) = some .shared := by simp [wants, hpc, waits]
      by_cases free : b.split.lock = none
      · left
        intro fates
        cases hw : b.split.writer <;> simp [hw, WriterPc.waits] at waits <;>
          simp [callStep, hpc, Split.collect, Split.writerStep, hw, free]
      · obtain ⟨u, held⟩ := h.shared_held free
        exact .inr (h.behind f (by decide) wants held)
    · left
      intro fates
      cases hw : b.split.writer with
      | idle | panicked => simp [hw, WriterPc.busy] at busy
      | lockInsert | lockRemove => simp [hw, WriterPc.waits] at waits
      | insert | remove => simp [callStep, hpc, Split.collect, Split.writerStep, hw]
      | write seqnum cmd =>
        simp only [callStep, hpc, Split.collect, Split.writerStep, hw]
        split <;> rfl
      | returned result => cases result <;> simp [callStep, hpc, Split.collect, hw]
  | lockPending seqnum =>
    have wants : b.wants (.call c) = some .pending := by simp [wants, hpc]
    by_cases free : b.pendingLock = none
    · left
      intro fates
      simp [callStep, hpc, free]
    · obtain ⟨u, held⟩ := pending_held free
      exact .inr (h.behind f (by decide) wants held)
  | insert seqnum | unlockWriter =>
    left
    intro fates
    simp [callStep, hpc]
  | _ => simp [hpc, CallPc.guarded] at guarded

/-- What the reader thread can be doing in `recv`. -/
theorem Scopes.receiving_cases {b : Bridge} (h : b.Scopes) (f : b.Fresh)
    (pc : b.reader = .receiving) : b.Enabled .reader ∨ b.AwaitsBytes ∨ b.Behind .reader := by
  have proceeds (busy : ∀ result, b.split.reader ≠ .returned result)
      (moves : b.split.readerStep.isSome) : b.Enabled .reader := by
    left
    rwa [readerStep_receiving pc busy, Option.isSome_map]
  have reads (position : b.split.reader = .header ∨
      ∃ header direction, b.split.reader = .payload header direction) :
      b.Enabled .reader ∨ b.AwaitsBytes := by
    have busy : ∀ result, b.split.reader ≠ .returned result := by
      rintro result returned
      rcases position with position | ⟨_, _, position⟩ <;> simp [position] at returned
    by_cases stuck : b.split.readerStep = none
    · refine .inr ⟨⟨pc, position⟩, Split.open_of_stuck position stuck, ?_⟩
      rw [readerStep_receiving pc busy, stuck, Option.map_none]
    · exact .inl (proceeds busy (Option.isSome_iff_ne_none.mpr stuck))
  cases hr : b.split.reader with
  | header =>
    rcases reads (.inl hr) with enabled | awaits
    · exact .inl enabled
    · exact .inr (.inl awaits)
  | payload header direction =>
    rcases reads (.inr ⟨header, direction, hr⟩) with enabled | awaits
    · exact .inl enabled
    · exact .inr (.inl awaits)
  | lockSubmit header | lockUnlink header =>
    by_cases free : b.split.lock = none
    · refine .inl (proceeds (by simp [hr]) ?_)
      simp [Split.readerStep, hr, free]
    · obtain ⟨u, held⟩ := h.shared_held free
      exact .inr (.inr (h.behind f (by decide) (by simp [wants, pc, hr, ReaderPc.waits]) held))
  | removeSubmit header | removeUnlink header =>
    have inside : b.split.inShared .reader := by simp [Split.inShared, hr, ReaderPc.inShared]
    have held : b.holder .shared = some .reader :=
      holder_shared.mpr (.inr ⟨(h.shared .reader).mpr inside, rfl⟩)
    exact .inl (h.shared_enabled held)
  | returned result =>
    left
    left
    cases result with
    | error e => simp [readerStep, pc, Split.takeResponse, hr]
    | ok response => cases response <;> simp [readerStep, pc, Split.takeResponse, hr]

/-- What the reader thread can be doing. -/
theorem Scopes.reader_cases {b : Bridge} (h : b.Scopes) (f : b.Fresh) :
    b.Enabled .reader ∨ b.AwaitsBytes ∨ b.reader = .finished ∨ b.Behind .reader := by
  cases pc : b.reader with
  | receiving =>
    rcases h.receiving_cases f pc with enabled | awaits | behind
    · exact .inl enabled
    · exact .inr (.inl awaits)
    · exact .inr (.inr (.inr behind))
  | lockPending ret | lockDrain =>
    by_cases free : b.pendingLock = none
    · left
      left
      simp [readerStep, pc, free]
    · obtain ⟨u, held⟩ := pending_held free
      exact .inr (.inr (.inr (h.behind f (by decide) (by simp [wants, pc]) held)))
  | remove ret => exact .inl (.inl (reader_remove_enabled pc))
  | deliver ret tx =>
    left
    left
    simp only [readerStep, pc, f.send_some (.inr ⟨ret, pc⟩), Option.map_some]
    rfl
  | draining => exact .inl (f.draining_enabled pc)
  | finished => exact .inr (.inr (.inl rfl))

/-! ## The reader thread on its own -/

/-- A step of the reader thread. -/
def Action.ofReader : Action → Bool
  | .reader | .drain _ => true
  | _ => false

/-- What the reader thread still has to do before it needs bytes. -/
def fuel (b : Bridge) : ℕ :=
  b.split.arrived.length + b.pending.keys.card +
    match b.reader with
    | .finished => 0
    | .draining => 1
    | .lockDrain => 2
    | .deliver .. => 5
    | .remove _ => 6
    | .lockPending _ => 7
    | .receiving =>
      match b.split.reader with
      | .returned (.error _) => 3
      | .header => 4
      | .returned (.ok _) => 8
      | .payload .. | .removeUnlink _ => 9
      | .removeSubmit _ | .lockUnlink _ => 10
      | .lockSubmit _ => 11

theorem card_erase_lt {b : Bridge} {k : UInt32} {tx : CallId}
    (lookup : b.pending.lookup k = some tx) :
    (b.pending.erase k).keys.card + 1 = b.pending.keys.card := by
  have counted := congrArg Multiset.card
    (Table.keys_eq_cons_erase b.pending k (Finmap.mem_of_lookup_eq_some lookup))
  rw [Multiset.card_cons] at counted
  exact counted.symm

/-- Every step of the reader thread uses up some of it. -/
theorem Scopes.fuel_lt {b b' : Bridge} {a : Action} (h : b.Scopes) (mine : a.ofReader = true)
    (step : b.step a = some b') : b'.fuel < b.fuel := by
  cases step_cases step with
  | start | call | deliver | close => cases mine
  | drain pc lookup send =>
    have erased := card_erase_lt lookup
    simp only [fuel, setCall, pc]
    omega
  | reader move =>
    cases move with
    | reading pc read =>
      cases Split.readerStep_cases read with
      | submitHeader at_ enough | unlinkHeader at_ enough | unknownCommand at_ enough =>
        simp only [fuel, pc, at_, List.length_drop]
        omega
      | ended at_ =>
        rcases at_ with at_ | ⟨_, _, at_⟩ <;> simp only [fuel, pc, at_, List.length_nil] <;> omega
      | payload at_ amount enough =>
        simp only [fuel, pc, at_, Split.returnSubmit, List.length_drop]
        omega
      | lockSubmit at_ | unknownSeqnum at_ | removeSubmit at_ | lockUnlink at_
      | removeUnlink at_ =>
        simp only [fuel, pc, at_]
        omega
    | submit pc take | unlink pc take | error pc take =>
      obtain ⟨at_, rfl⟩ := Split.takeResponse_cases take
      simp only [fuel, pc, at_]
      omega
    | lockPending pc | lockDrain pc | drained pc =>
      simp only [fuel, pc]
      omega
    | found pc lookup =>
      have erased := card_erase_lt lookup
      simp only [fuel, pc]
      omega
    | unknown pc lookup =>
      have at_ := h.receiving (by simp [pc])
      simp only [fuel, pc, at_, Table.erase_of_lookup_none _ _ lookup]
      omega
    | deliver pc send =>
      have at_ := h.receiving (by simp [pc])
      simp only [fuel, setCall, pc, at_]
      omega

/-- The reader thread does not touch the writer half. -/
theorem reader_keeps_writer {b b' : Bridge} {a : Action} (mine : a.ofReader = true)
    (step : b.step a = some b') : b'.split.writer = b.split.writer := by
  cases step_cases step with
  | start | call | deliver | close => cases mine
  | drain => rfl
  | reader move =>
    cases move with
    | reading pc read => exact (Split.readerStep_cases read).writer_eq.1
    | submit pc take | unlink pc take | error pc take =>
      obtain ⟨_, rfl⟩ := Split.takeResponse_cases take
      rfl
    | _ => rfl

theorem Enabled.reader_step {b : Bridge} (enabled : b.Enabled .reader) :
    ∃ a b', a.ofReader = true ∧ b.step a = some b' := by
  rcases enabled with enabled | ⟨k, enabled⟩
  · obtain ⟨b', step⟩ := Option.isSome_iff_exists.mp enabled
    exact ⟨.reader, b', rfl, step⟩
  · obtain ⟨b', step⟩ := Option.isSome_iff_exists.mp enabled
    exact ⟨.drain k, b', rfl, step⟩

/-- While a call writes to the socket it holds neither of the mutexes that the reader
thread takes. -/
theorem Scopes.not_behind_write {b : Bridge} (h : b.Scopes) {seqnum : UInt32} {cmd : Command}
    (writing : b.split.writer = .write seqnum cmd) : ¬ b.Behind .reader := by
  rintro ⟨m, u, inner, waits, held, -⟩
  have lower := h.ordered u
  cases u with
  | reader => exact absurd (lower _ _ held waits) (Nat.lt_irrefl _)
  | call c =>
    cases m with
    | writer => exact inner rfl
    | shared =>
      have inside := (h.shared_call held).2
      simp [writing, WriterPc.inShared] at inside
    | pending =>
      obtain ⟨k, inserting⟩ := h.pending_call held
      obtain ⟨d, sending⟩ := h.busy.mp (by simp [writing, WriterPc.busy])
      obtain rfl := h.sending_owner (c := c) (by simp [inserting, CallPc.guarded]) sending
      simp [inserting] at sending

/-- Beside a call in its socket write, the reader thread takes in what has arrived. -/
theorem reader_runs_on {b : Bridge} (h : b.Scopes) (f : b.Fresh) {seqnum : UInt32}
    {cmd : Command} (writing : b.split.writer = .write seqnum cmd) :
    ∃ as b', (∀ a ∈ as, a.ofReader = true) ∧ exec Bridge.step b as = some b' ∧
      b'.split.writer = .write seqnum cmd ∧ (b'.AwaitsBytes ∨ b'.reader = .finished) := by
  have progress : ∀ b : Bridge, b.Scopes ∧ b.Fresh ∧ b.split.writer = .write seqnum cmd →
      (b.AwaitsBytes ∨ b.reader = .finished) ∨
        ∃ a b', a.ofReader = true ∧ b.step a = some b' ∧
          (b'.Scopes ∧ b'.Fresh ∧ b'.split.writer = .write seqnum cmd) ∧ b'.fuel < b.fuel := by
    rintro b ⟨h, f, writing⟩
    rcases h.reader_cases f with enabled | awaits | finished | behind
    · obtain ⟨a, b', mine, step⟩ := enabled.reader_step
      refine .inr ⟨a, b', mine, step, ⟨?_, ?_, ?_⟩, h.fuel_lt mine step⟩
      · exact scopes_step h step
      · exact fresh_step f step
      · rw [reader_keeps_writer mine step, writing]
    · exact .inl (.inl awaits)
    · exact .inl (.inr finished)
    · exact absurd behind (h.not_behind_write writing)
  obtain ⟨as, b', mine, run, ⟨-, -, kept⟩, there⟩ :=
    exec_to_goal Bridge.step _ _ _ fuel progress ⟨h, f, writing⟩
  exact ⟨as, b', mine, run, kept, there⟩

/-! ## No deadlock -/

/-- No cycle of threads waits for the mutexes; the reader thread holds none of them at
the socket and never wants the writer mutex; whoever holds SharedState or
`bridge.pending` can go on, and whoever holds the writer mutex can go on or waits for
one who can; and while a call is in its socket write, the reader thread gets through
everything that has arrived. -/
theorem bridge_deadlock_free {build : Build} {c : UsbipConnection} {b : Bridge}
    (run : Reaches Bridge.step always (new (.ofConnection build c)) b) :
    (∀ t, ¬ Relation.TransGen b.WaitsFor t t) ∧
      (b.Reading → ∀ m, b.holder m ≠ some .reader) ∧
      b.wants .reader ≠ some .writer ∧
      (∀ m t, m ≠ .writer → b.holder m = some t → b.Enabled t) ∧
      (∀ c, b.holder .writer = some (.call c) → b.Enabled (.call c) ∨ b.Behind (.call c)) ∧
      ∀ seqnum cmd, b.split.writer = .write seqnum cmd →
        ∃ as b', (∀ a ∈ as, a.ofReader = true) ∧ exec Bridge.step b as = some b' ∧
          b'.split.writer = .write seqnum cmd ∧ (b'.AwaitsBytes ∨ b'.reader = .finished) := by
  have h := scopes_reachable run
  have f := fresh_reachable run
  refine ⟨?_, ?_, ?_, ?_, ?_, ?_⟩
  · exact h.ordered.no_cycle
  · rintro ⟨receiving, position⟩ m held
    cases m with
    | writer =>
      obtain ⟨_, same, _⟩ := holder_writer.mp held
      cases same
    | shared =>
      have inside := (h.shared_reader held).2
      rcases position with position | ⟨_, _, position⟩ <;>
        simp [position, ReaderPc.inShared] at inside
    | pending => rcases h.pending_reader held with ⟨_, pc⟩ | pc <;> simp [receiving] at pc
  · intro waits
    rcases wants_reader waits with ⟨_, _, same⟩ | ⟨_, same⟩ <;> cases same
  · intro m t inner held
    exact h.inner_enabled f inner held
  · intro c held
    obtain ⟨_, same, owner⟩ := holder_writer.mp held
    obtain rfl := Thread.call.inj same
    exact h.writer_enabled f owner
  · intro seqnum cmd writing
    exact reader_runs_on h f writing

def inWrite (b : Bridge) : Bool :=
  match b.split.writer with
  | .write .. => true
  | _ => false

/-- The answer is there while call 0 is still writing its command. -/
theorem bridge_deadlock_free_write : ∃ b : Bridge, inWrite b = true ∧
    b.split.arrived = firstReply.encode ∧ (∀ t, ¬ Relation.TransGen b.WaitsFor t t) ∧
    ∃ as b', (∀ a ∈ as, a.ofReader = true) ∧ exec Bridge.step b as = some b' ∧
      (b'.AwaitsBytes ∨ b'.reader = .finished) := by
  obtain ⟨b, run, found⟩ := Reaches.of_exec_any step always_of_anyStep device
    (.start 0 bulkIn :: List.replicate 4 (.call 0 []) ++ [.deliver firstReply.encode])
    (fun b => inWrite b && decide (b.split.arrived = firstReply.encode)) (by decide +kernel)
  rw [Bool.and_eq_true, decide_eq_true_iff] at found
  obtain ⟨writing, arrived⟩ := found
  obtain ⟨noCycle, -, -, -, -, goes⟩ := bridge_deadlock_free run
  refine ⟨b, writing, arrived, noCycle, ?_⟩
  unfold inWrite at writing
  split at writing
  · next seqnum cmd pc =>
    obtain ⟨as, b', mine, runs, -, there⟩ := goes seqnum cmd pc
    exact ⟨as, b', mine, runs, there⟩
  · cases writing

end Bridge

end UsbipDevirt
