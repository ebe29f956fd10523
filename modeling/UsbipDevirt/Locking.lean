import UsbipDevirt.BridgeSafety
import UsbipDevirt.Lib.Locks

/-!
# The mutexes of the bridge

A thread in `submit` takes the writer mutex and, one after the other, SharedState
and `bridge.pending` under it; the reader thread takes these two alone. Nothing
here depends on the sequence number counter, so it holds for runs of any length.
-/

namespace UsbipDevirt

open Transition Locks

inductive Mutex where
  | writer
  | shared
  | pending
  deriving DecidableEq

inductive Thread where
  | call (c : CallId)
  | reader
  deriving DecidableEq

/-! ## The scopes of the guards -/

def WriterPc.inShared : WriterPc → Bool
  | .insert .. | .remove .. => true
  | _ => false

/-- Between the call of `send_submit` and the use of its result. -/
def WriterPc.busy : WriterPc → Bool
  | .idle | .panicked => false
  | _ => true

def ReaderPc.inShared : ReaderPc → Bool
  | .removeSubmit _ | .removeUnlink _ => true
  | _ => false

def CallPc.inPending : CallPc → Bool
  | .insert _ => true
  | _ => false

def ReaderThread.inPending : ReaderThread → Bool
  | .remove _ | .draining => true
  | _ => false

/-- Waiting for SharedState. -/
def WriterPc.waits : WriterPc → Bool
  | .lockInsert .. | .lockRemove .. => true
  | _ => false

def ReaderPc.waits : ReaderPc → Bool
  | .lockSubmit _ | .lockUnlink _ => true
  | _ => false

theorem WriterPc.not_inShared_of_waits {pc : WriterPc} (waits : pc.waits = true) :
    pc.inShared = false := by
  cases pc <;> simp [WriterPc.waits, WriterPc.inShared] at waits ⊢

theorem WriterPc.busy_of_inShared {pc : WriterPc} (inside : pc.inShared = true) :
    pc.busy = true := by
  cases pc <;> simp [WriterPc.inShared, WriterPc.busy] at inside ⊢

theorem ReaderPc.not_inShared_of_waits {pc : ReaderPc} (waits : pc.waits = true) :
    pc.inShared = false := by
  cases pc <;> simp [ReaderPc.waits, ReaderPc.inShared] at waits ⊢

namespace Bridge

/-- Who holds the mutex. The writer half is used by the holder of the writer mutex. -/
def holder (b : Bridge) : Mutex → Option Thread
  | .writer => b.writer.map .call
  | .shared =>
    match b.split.lock with
    | some .writer => b.writer.map .call
    | some .reader => some .reader
    | none => none
  | .pending =>
    match b.pendingLock with
    | some (.call c) => some (.call c)
    | some .reader => some .reader
    | none => none

/-- The mutex whose `lock` the thread has called and not yet got. -/
def wants (b : Bridge) : Thread → Option Mutex
  | .call c =>
    match (b.calls c).pc with
    | .lockWriter => some .writer
    | .sending => if b.split.writer.waits then some .shared else none
    | .lockPending _ => some .pending
    | _ => none
  | .reader =>
    match b.reader with
    | .receiving => if b.split.reader.waits then some .shared else none
    | .lockPending _ | .lockDrain => some .pending
    | _ => none

def WaitsFor (b : Bridge) : Thread → Thread → Prop := Locks.WaitsFor b.holder b.wants

/-- The thread has a step, whatever becomes of the socket write it may be at. -/
def Enabled (b : Bridge) : Thread → Prop
  | .call c => ∀ fates, (b.callStep c fates).isSome
  | .reader => b.readerStep.isSome ∨ ∃ seqnum, (b.drainStep seqnum).isSome

/-- The reader thread is in a `read_exact` on the socket. -/
def Reading (b : Bridge) : Prop :=
  b.reader = .receiving ∧
    (b.split.reader = .header ∨ ∃ header direction, b.split.reader = .payload header direction)

/-- It is there and needs bytes that have not come. -/
def AwaitsBytes (b : Bridge) : Prop := b.Reading ∧ b.split.closed = none ∧ b.readerStep = none

end Bridge

/-! ## Guards and positions -/

/-- The half has a guard of SharedState. -/
def Split.inShared (s : Split) : Half → Prop
  | .writer => s.writer.inShared = true
  | .reader => s.reader.inShared = true

/-- SharedState is locked exactly within the scope of a guard. -/
theorem Split.guards_step {s t : Split} {a : Action} (h : Guards s.lock s.inShared)
    (step : s.step a = some t) : Guards t.lock t.inShared := by
  cases step_cases step with
  | overflow pc | call pc | collect pc | takeResponse pc =>
    apply h.keep
    rintro (_ | _) <;> simp [inShared, pc, WriterPc.inShared, ReaderPc.inShared]
  | deliver | close => exact h
  | writer move =>
    cases move with
    | lockInsert pc free | lockRemove pc free =>
      rw [free] at h
      apply h.take .writer
      · rfl
      · rintro (_ | _) other <;> simp [inShared] at other ⊢
    | insert pc | remove pc =>
      apply h.release .writer
      · simp [inShared, pc, WriterPc.inShared]
      · simp [inShared, WriterPc.inShared]
      · rintro (_ | _) other <;> simp [inShared] at other ⊢
    | written pc | failed pc =>
      apply h.keep
      rintro (_ | _) <;> simp [inShared, pc, WriterPc.inShared]
  | reader move =>
    cases move with
    | lockSubmit pc free | lockUnlink pc free =>
      rw [free] at h
      apply h.take .reader
      · rfl
      · rintro (_ | _) other <;> simp [inShared] at other ⊢
    | unknownSeqnum pc | removeSubmit pc | removeUnlink pc =>
      apply h.release .reader
      · simp [inShared, pc, ReaderPc.inShared]
      · simp [inShared, ReaderPc.inShared]
      · rintro (_ | _) other <;> simp [inShared] at other ⊢
    | submitHeader pc | unlinkHeader pc | unknownCommand pc | payload pc =>
      apply h.keep
      rintro (_ | _) <;> simp [inShared, pc, ReaderPc.inShared, returnSubmit]
    | ended pc =>
      apply h.keep
      rcases pc with pc | ⟨_, _, pc⟩ <;> rintro (_ | _) <;>
        simp [inShared, pc, ReaderPc.inShared]

theorem Split.WriterMove.busy {s t : Split} {fates : List Fate} (move : s.WriterMove fates t) :
    t.writer.busy = true ∧ t.reader = s.reader := by
  cases move <;> exact ⟨rfl, rfl⟩

theorem Split.ReaderMove.writer_eq {s t : Split} (move : s.ReaderMove t) :
    t.writer = s.writer ∧ t.sent = s.sent := by
  cases move <;> exact ⟨rfl, rfl⟩

namespace Bridge

def inWriter (b : Bridge) (c : CallId) : Prop := (b.calls c).pc.guarded = true

def inPending (b : Bridge) : PendingHolder → Prop
  | .call c => (b.calls c).pc.inPending = true
  | .reader => b.reader.inPending = true

/-- Each mutex is locked exactly within the scopes of its guards, and the halves of
the connection are used by the threads that own them. -/
structure Scopes (b : Bridge) : Prop where
  shared : Guards b.split.lock b.split.inShared
  writer : Guards b.writer b.inWriter
  pending : Guards b.pendingLock b.inPending
  busy : b.split.writer.busy = true ↔ ∃ c, (b.calls c).pc = .sending
  idle : ∀ c, (b.calls c).pc = .sendSubmit → b.split.writer = .idle
  poisoned : b.split.writer = .panicked → b.poisoned = true
  receiving : b.reader ≠ .receiving → b.split.reader = .header

theorem Scopes.owner {b : Bridge} (h : b.Scopes) {c : CallId}
    (here : (b.calls c).pc.guarded = true) : b.writer = some c := (h.writer c).mpr here

/-- While one call holds the writer mutex no other is in `send_submit`. -/
theorem Scopes.sending_owner {b : Bridge} (h : b.Scopes) {c d : CallId}
    (here : (b.calls c).pc.guarded = true) (sending : (b.calls d).pc = .sending) : d = c := by
  have other : b.inWriter d := by simp [inWriter, sending, CallPc.guarded]
  exact h.writer.unique other here

/-- Behind a mutex that is free and not poisoned, the writer half is ready for a call. -/
theorem Scopes.idle_of_free {b : Bridge} (h : b.Scopes) (free : b.writer = none)
    (sound : b.poisoned = false) : b.split.writer = .idle := by
  have notBusy : ¬ b.split.writer.busy = true := by
    intro busy
    obtain ⟨c, sending⟩ := h.busy.mp busy
    have owner := h.owner (c := c) (by simp [sending, CallPc.guarded])
    rw [free] at owner
    cases owner
  have intact : b.split.writer ≠ .panicked := by
    intro panicked
    rw [h.poisoned panicked] at sound
    cases sound
  cases hw : b.split.writer <;> simp [hw, WriterPc.busy] at notBusy intact ⊢

theorem scopes_new (split : Split) (writer : split.writer = .idle) (reader : split.reader = .header)
    (free : split.lock = none) : (new split).Scopes := by
  constructor
  · intro half
    cases half <;> simp [new, free, Split.inShared, writer, reader, WriterPc.inShared,
      ReaderPc.inShared]
  · intro c
    simp [new, inWriter, Call.idle, CallPc.guarded]
  · intro holder
    cases holder <;> simp [new, inPending, Call.idle, CallPc.inPending, ReaderThread.inPending]
  · simp [new, writer, WriterPc.busy, Call.idle]
  · intro c pc
    exact writer
  · intro panicked
    rw [new, writer] at panicked
    cases panicked
  · intro other
    exact reader

/-- A step that moves no call and leaves the writer half to them. -/
theorem Scopes.of_same_calls {b b' : Bridge} (h : b.Scopes)
    (pc : ∀ c, (b'.calls c).pc = (b.calls c).pc) (writer : b'.writer = b.writer)
    (poisoned : b'.poisoned = b.poisoned) (splitWriter : b'.split.writer = b.split.writer)
    (shared : Guards b'.split.lock b'.split.inShared)
    (pending : Guards b'.pendingLock b'.inPending)
    (receiving : b'.reader ≠ .receiving → b'.split.reader = .header) : b'.Scopes := by
  constructor
  · exact shared
  · rw [writer]
    apply h.writer.keep
    intro c
    rw [inWriter, pc, inWriter]
  · exact pending
  · rw [splitWriter, h.busy]
    simp only [pc]
  · intro c here
    rw [splitWriter]
    exact h.idle c (by rw [← pc, here])
  · rw [splitWriter, poisoned]
    exact h.poisoned
  · exact receiving

/-- A step in which one call moves and the reader thread does not. -/
structure Moves (b b' : Bridge) (c : CallId) : Prop where
  other : ∀ d, d ≠ c → (b'.calls d).pc = (b.calls d).pc
  reader : b'.reader = b.reader
  splitReader : b'.split.reader = b.split.reader

theorem callMove_moves {b b' : Bridge} {c : CallId} {fates : List Fate}
    (move : CallMove b c fates b') : Moves b b' c := by
  have others (call : Call) (d : CallId) (hd : d ≠ c) :
      ((b.setCall c call).calls d).pc = (b.calls d).pc := by rw [setCall_calls_of_ne b call hd]
  cases move with
  | allocated pc call | panicked pc call =>
    refine ⟨others _, rfl, ?_⟩
    obtain ⟨_, ⟨_, rfl⟩ | ⟨_, _, _, rfl⟩⟩ := Split.call_cases call <;> rfl
  | writing pc step =>
    exact ⟨fun d hd => rfl, rfl, (Split.writerStep_cases step).busy.2⟩
  | written pc collect | failed pc collect =>
    refine ⟨others _, rfl, ?_⟩
    obtain ⟨_, rfl⟩ := Split.collect_cases collect
    rfl
  | _ => exact ⟨others _, rfl, rfl⟩

namespace Moves

variable {b b' : Bridge} {c : CallId}

theorem writer_others (m : Moves b b' c) (d : CallId) (hd : d ≠ c) :
    b'.inWriter d ↔ b.inWriter d := by rw [inWriter, m.other d hd, inWriter]

theorem pending_others (m : Moves b b' c) (holder : PendingHolder)
    (other : holder ≠ .call c) : b'.inPending holder ↔ b.inPending holder := by
  cases holder with
  | call d =>
    have hd : d ≠ c := fun same => other (by rw [same])
    simp only [inPending, m.other d hd]
  | reader => simp only [inPending, m.reader]

theorem writer_keep (m : Moves b b' c) (h : b.Scopes)
    (same : (b'.calls c).pc.guarded = (b.calls c).pc.guarded) : Guards b.writer b'.inWriter := by
  apply h.writer.keep
  intro d
  by_cases hd : d = c
  · rw [hd, inWriter, same, inWriter]
  · exact m.writer_others d hd

theorem writer_leave (m : Moves b b' c) (h : b.Scopes) (before : (b.calls c).pc.guarded = true)
    (after : (b'.calls c).pc.guarded = false) : Guards none b'.inWriter := by
  apply h.writer.release c
  · exact before
  · simp [inWriter, after]
  · exact m.writer_others

theorem pending_keep (m : Moves b b' c) (h : b.Scopes)
    (same : (b'.calls c).pc.inPending = (b.calls c).pc.inPending) :
    Guards b.pendingLock b'.inPending := by
  apply h.pending.keep
  intro holder
  by_cases hd : holder = .call c
  · simp only [hd, inPending, same]
  · exact m.pending_others holder hd

/-- The writer half is not touched, and the call neither enters nor leaves `send_submit`. -/
theorem scopes (m : Moves b b' c) (h : b.Scopes) (before : (b.calls c).pc ≠ .sending)
    (after : (b'.calls c).pc ≠ .sending)
    (idle : (b'.calls c).pc = .sendSubmit → b.split.writer = .idle)
    (split : b'.split = b.split) (poisoned : b'.poisoned = b.poisoned)
    (writer : Guards b'.writer b'.inWriter) (pending : Guards b'.pendingLock b'.inPending) :
    b'.Scopes := by
  constructor
  · rw [split]
    exact h.shared
  · exact writer
  · exact pending
  · rw [split, h.busy]
    constructor
    · rintro ⟨d, sending⟩
      have other : d ≠ c := fun same => before (same ▸ sending)
      exact ⟨d, by rw [m.other d other, sending]⟩
    · rintro ⟨d, sending⟩
      have other : d ≠ c := fun same => after (same ▸ sending)
      exact ⟨d, by rw [← m.other d other, sending]⟩
  · intro d here
    rw [split]
    by_cases hd : d = c
    · exact idle (hd ▸ here)
    · exact h.idle d (by rw [← m.other d hd, here])
  · rw [split, poisoned]
    exact h.poisoned
  · rw [m.reader, split]
    exact h.receiving

/-- The call is in `send_submit` before the step or after it, under the writer mutex. -/
theorem scopes_sending (m : Moves b b' c) (h : b.Scopes) (guarded : (b.calls c).pc.guarded = true)
    (shared : Guards b'.split.lock b'.split.inShared)
    (busy : b'.split.writer.busy = true ↔ (b'.calls c).pc = .sending)
    (poisoned : b'.split.writer = .panicked → b'.poisoned = true)
    (idle : (b'.calls c).pc ≠ .sendSubmit) (writer : Guards b'.writer b'.inWriter)
    (pending : Guards b'.pendingLock b'.inPending) : b'.Scopes := by
  have alone : ∀ d, (b.calls d).pc.guarded = true → d = c :=
    fun d hd => h.writer.unique (t := d) (u := c) hd guarded
  constructor
  · exact shared
  · exact writer
  · exact pending
  · rw [busy]
    constructor
    · intro sending
      exact ⟨c, sending⟩
    · rintro ⟨d, sending⟩
      by_cases hd : d = c
      · exact hd ▸ sending
      · rw [m.other d hd] at sending
        exact absurd (alone d (by rw [sending]; rfl)) hd
  · intro d here
    by_cases hd : d = c
    · exact absurd (hd ▸ here) idle
    · rw [m.other d hd] at here
      exact absurd (alone d (by rw [here]; rfl)) hd
  · exact poisoned
  · rw [m.reader, m.splitReader]
    exact h.receiving

end Moves

theorem scopes_callMove {b b' : Bridge} {c : CallId} {fates : List Fate} (h : b.Scopes)
    (step : b.callStep c fates = some b') : b'.Scopes := by
  have move := callStep_cases step
  have m := callMove_moves move
  cases move with
  | poisoned pc free | received pc channel | disconnected pc channel gone =>
    apply m.scopes h
    · simp [pc]
    · simp
    · simp
    · rfl
    · rfl
    · exact m.writer_keep h (by simp [pc, CallPc.guarded])
    · exact m.pending_keep h (by simp [pc, CallPc.inPending])
  | lockWriter pc free =>
    apply m.scopes h
    · simp [pc]
    · simp [setCall]
    · intro _
      apply h.idle_of_free free
      -- a poisoned mutex lets nobody in
      cases poisoned : b.poisoned with
      | false => rfl
      | true =>
        have moved := congrArg (Option.map fun b' : Bridge => (b'.calls c).pc) step
        simp [callStep, pc, free, poisoned, setCall] at moved
    · rfl
    · rfl
    · have unlocked := h.writer
      rw [free] at unlocked
      apply unlocked.take _
      · simp [inWriter, setCall, CallPc.guarded]
      · exact m.writer_others
    · exact m.pending_keep h (by simp [pc, setCall, CallPc.inPending])
  | @allocated split seqnum cmd pc call writer =>
    apply m.scopes_sending h
    · simp [pc, CallPc.guarded]
    · exact Split.guards_step h.shared (a := .call _) call
    · simp [writer, WriterPc.busy, setCall]
    · simp [writer]
    · simp [setCall]
    · exact m.writer_keep h (by simp [pc, setCall, CallPc.guarded])
    · exact m.pending_keep h (by simp [pc, setCall, CallPc.inPending])
  | @panicked split pc call writer =>
    have out : split.writer = .panicked := by
      obtain ⟨_, ⟨_, rfl⟩ | ⟨_, _, _, rfl⟩⟩ := Split.call_cases call
      · rfl
      · exact absurd rfl (writer _ _)
    apply m.scopes_sending h
    · simp [pc, CallPc.guarded]
    · exact Split.guards_step h.shared (a := .call _) call
    · simp [out, WriterPc.busy, setCall]
    · simp
    · simp [setCall]
    · exact m.writer_leave h (by simp [pc, CallPc.guarded]) (by simp [setCall, CallPc.guarded])
    · exact m.pending_keep h (by simp [pc, setCall, CallPc.inPending])
  | @writing split pc wrote =>
    have busy := (Split.writerStep_cases wrote).busy.1
    apply m.scopes_sending h
    · simp [pc, CallPc.guarded]
    · exact Split.guards_step h.shared (a := .writer fates) wrote
    · simp [busy, pc]
    · intro panicked
      have writer : split.writer = .panicked := panicked
      rw [writer] at busy
      cases busy
    · simp [pc]
    · exact m.writer_keep h rfl
    · exact m.pending_keep h rfl
  | written pc collect =>
    have shared := Split.guards_step h.shared (a := .collect) (by rw [Split.step, collect]; rfl)
    obtain ⟨_, rfl⟩ := Split.collect_cases collect
    apply m.scopes_sending h
    · simp [pc, CallPc.guarded]
    · exact shared
    · simp [WriterPc.busy, setCall]
    · simp
    · simp [setCall]
    · exact m.writer_keep h (by simp [pc, setCall, CallPc.guarded])
    · exact m.pending_keep h (by simp [pc, setCall, CallPc.inPending])
  | failed pc collect =>
    have shared := Split.guards_step h.shared (a := .collect) (by rw [Split.step, collect]; rfl)
    obtain ⟨_, rfl⟩ := Split.collect_cases collect
    apply m.scopes_sending h
    · simp [pc, CallPc.guarded]
    · exact shared
    · simp [WriterPc.busy, setCall]
    · simp
    · simp [setCall]
    · exact m.writer_leave h (by simp [pc, CallPc.guarded]) (by simp [setCall, CallPc.guarded])
    · exact m.pending_keep h (by simp [pc, setCall, CallPc.inPending])
  | lockPending pc free =>
    have unlocked := h.pending
    rw [free] at unlocked
    apply m.scopes h
    · simp [pc]
    · simp [setCall]
    · simp [setCall]
    · rfl
    · rfl
    · exact m.writer_keep h (by simp [pc, setCall, CallPc.guarded])
    · apply unlocked.take _
      · simp [inPending, setCall, CallPc.inPending]
      · exact m.pending_others
  | insert pc =>
    apply m.scopes h
    · simp [pc]
    · simp [setCall]
    · simp [setCall]
    · rfl
    · rfl
    · exact m.writer_keep h (by simp [pc, setCall, CallPc.guarded])
    · apply h.pending.release (.call c)
      · simp [inPending, pc, CallPc.inPending]
      · simp [inPending, setCall, CallPc.inPending]
      · exact m.pending_others
  | unlockWriter pc =>
    apply m.scopes h
    · simp [pc]
    · simp [setCall]
    · simp [setCall]
    · rfl
    · rfl
    · exact m.writer_leave h (by simp [pc, CallPc.guarded]) (by simp [setCall, CallPc.guarded])
    · exact m.pending_keep h (by simp [pc, setCall, CallPc.inPending])

/-- The reader thread neither takes nor leaves `bridge.pending`. -/
theorem Scopes.pending_keep {b b' : Bridge} (h : b.Scopes)
    (pc : ∀ c, (b'.calls c).pc = (b.calls c).pc)
    (same : b'.reader.inPending = b.reader.inPending) : Guards b.pendingLock b'.inPending := by
  apply h.pending.keep
  intro holder
  cases holder with
  | call c => simp only [inPending, pc]
  | reader => simp only [inPending, same]

theorem scopes_threadMove {b b' : Bridge} (h : b.Scopes) (move : ThreadMove b b') : b'.Scopes := by
  cases move with
  | reading pc step =>
    have writer := (Split.readerStep_cases step).writer_eq.1
    apply h.of_same_calls
    · exact fun _ => rfl
    · rfl
    · rfl
    · exact writer
    · exact Split.guards_step h.shared (a := .reader) step
    · exact h.pending
    · exact fun other => absurd pc other
  | submit pc take | unlink pc take | error pc take =>
    have shared := Split.guards_step h.shared (a := .takeResponse)
      (by rw [Split.step, take]; rfl)
    obtain ⟨_, rfl⟩ := Split.takeResponse_cases take
    apply h.of_same_calls
    · exact fun _ => rfl
    · rfl
    · rfl
    · rfl
    · exact shared
    · exact h.pending_keep (fun _ => rfl) (by simp [pc, ReaderThread.inPending])
    · exact fun _ => rfl
  | lockPending pc free | lockDrain pc free =>
    have unlocked := h.pending
    rw [free] at unlocked
    apply h.of_same_calls
    · exact fun _ => rfl
    · rfl
    · rfl
    · rfl
    · exact h.shared
    · apply unlocked.take _
      · rfl
      · rintro (_ | _) other
        · rfl
        · exact absurd rfl other
    · exact fun _ => h.receiving (by simp [pc])
  | found pc | unknown pc | drained pc =>
    apply h.of_same_calls
    · exact fun _ => rfl
    · rfl
    · rfl
    · rfl
    · exact h.shared
    · apply h.pending.release .reader
      · simp [inPending, pc, ReaderThread.inPending]
      · simp [inPending, ReaderThread.inPending]
      · rintro (_ | _) other
        · rfl
        · exact absurd rfl other
    · exact fun _ => h.receiving (by simp [pc])
  | deliver pc send =>
    apply h.of_same_calls
    · exact pc_send send
    · rfl
    · rfl
    · rfl
    · exact h.shared
    · exact h.pending_keep (pc_send send) (by simp [pc, ReaderThread.inPending])
    · exact fun _ => h.receiving (by simp [pc])

theorem scopes_step {b b' : Bridge} {a : Action} (h : b.Scopes) (step : b.step a = some b') :
    b'.Scopes := by
  cases step_cases step with
  | @start c request idle =>
    have m : Moves b (b.setCall c { Call.idle with request, pc := .lockWriter }) c :=
      ⟨fun d hd => by rw [setCall_calls_of_ne b _ hd], rfl, rfl⟩
    apply m.scopes h
    · simp [idle]
    · simp
    · simp
    · rfl
    · rfl
    · exact m.writer_keep h (by simp [idle, CallPc.guarded])
    · exact m.pending_keep h (by simp [idle, CallPc.inPending])
  | call move => exact scopes_callMove h step
  | reader move => exact scopes_threadMove h move
  | drain pc lookup send =>
    apply h.of_same_calls
    · exact pc_send send
    · rfl
    · rfl
    · rfl
    · exact h.shared
    · exact h.pending_keep (pc_send send) rfl
    · exact h.receiving
  | deliver arrive =>
    have shared := Split.guards_step h.shared (a := .deliver _) arrive
    obtain rfl := Split.deliver_cases arrive
    exact h.of_same_calls (fun _ => rfl) rfl rfl rfl shared h.pending h.receiving
  | close arrive =>
    have shared := Split.guards_step h.shared (a := .close _) arrive
    obtain rfl := Split.close_cases arrive
    exact h.of_same_calls (fun _ => rfl) rfl rfl rfl shared h.pending h.receiving

theorem scopes_reachable {build : Build} {c : UsbipConnection} {b : Bridge}
    (run : Reaches Bridge.step always (new (.ofConnection build c)) b) : b.Scopes :=
  run.invariant Scopes (scopes_new _ rfl rfl rfl) fun _ _ _ h _ step => scopes_step h step

/-! ## The order of the mutexes -/

/-- SharedState and `bridge.pending` are taken under the writer mutex, never one under
the other. -/
def rank : Mutex → ℕ
  | .writer => 0
  | .shared | .pending => 1

theorem holder_writer {b : Bridge} {t : Thread} :
    b.holder .writer = some t ↔ ∃ c, t = .call c ∧ b.writer = some c := by
  simp only [holder, Option.map_eq_some_iff]
  constructor
  · rintro ⟨c, held, rfl⟩
    exact ⟨c, rfl, held⟩
  · rintro ⟨c, rfl, held⟩
    exact ⟨c, held, rfl⟩

theorem holder_shared {b : Bridge} {t : Thread} : b.holder .shared = some t ↔
    (b.split.lock = some .writer ∧ ∃ c, t = .call c ∧ b.writer = some c) ∨
      (b.split.lock = some .reader ∧ t = .reader) := by
  simp only [holder]
  cases h : b.split.lock with
  | none => simp
  | some half =>
    cases half with
    | writer => simpa [holder] using holder_writer (b := b) (t := t)
    | reader => simp [eq_comm]

theorem holder_pending {b : Bridge} {t : Thread} : b.holder .pending = some t ↔
    (∃ c, t = .call c ∧ b.pendingLock = some (.call c)) ∨
      (t = .reader ∧ b.pendingLock = some .reader) := by
  simp only [holder]
  cases h : b.pendingLock with
  | none => simp
  | some holder => cases holder <;> simp [eq_comm]

/-- A call that holds SharedState is in `send_submit`, at the use of the maps. -/
theorem Scopes.shared_call {b : Bridge} (h : b.Scopes) {c : CallId}
    (held : b.holder .shared = some (.call c)) :
    (b.calls c).pc = .sending ∧ b.split.writer.inShared = true := by
  rcases holder_shared.mp held with ⟨locked, d, same, owner⟩ | ⟨_, same⟩
  · obtain rfl := Thread.call.inj same
    have inside : b.split.writer.inShared = true := (h.shared .writer).mp locked
    obtain ⟨d, sending⟩ := h.busy.mp (WriterPc.busy_of_inShared inside)
    obtain rfl := h.sending_owner ((h.writer c).mp owner) sending
    exact ⟨sending, inside⟩
  · cases same

theorem Scopes.shared_reader {b : Bridge} (h : b.Scopes)
    (held : b.holder .shared = some .reader) :
    b.reader = .receiving ∧ b.split.reader.inShared = true := by
  rcases holder_shared.mp held with ⟨_, _, same, _⟩ | ⟨locked, _⟩
  · cases same
  · have inside : b.split.reader.inShared = true := (h.shared .reader).mp locked
    refine ⟨?_, inside⟩
    by_contra other
    rw [h.receiving other] at inside
    cases inside

theorem Scopes.pending_call {b : Bridge} (h : b.Scopes) {c : CallId}
    (held : b.holder .pending = some (.call c)) : ∃ seqnum, (b.calls c).pc = .insert seqnum := by
  rcases holder_pending.mp held with ⟨d, same, locked⟩ | ⟨same, _⟩
  · obtain rfl := Thread.call.inj same
    have inside : (b.calls c).pc.inPending = true := (h.pending (.call c)).mp locked
    cases hpc : (b.calls c).pc <;> simp [hpc, CallPc.inPending] at inside ⊢
  · cases same

theorem Scopes.pending_reader {b : Bridge} (h : b.Scopes)
    (held : b.holder .pending = some .reader) :
    (∃ ret, b.reader = .remove ret) ∨ b.reader = .draining := by
  rcases holder_pending.mp held with ⟨_, same, _⟩ | ⟨_, locked⟩
  · cases same
  · have inside : b.reader.inPending = true := (h.pending .reader).mp locked
    cases hpc : b.reader <;> simp [hpc, ReaderThread.inPending] at inside ⊢

theorem wants_call {b : Bridge} {c : CallId} {m : Mutex} (h : b.wants (.call c) = some m) :
    ((b.calls c).pc = .lockWriter ∧ m = .writer) ∨
      ((b.calls c).pc = .sending ∧ b.split.writer.waits = true ∧ m = .shared) ∨
      ((∃ seqnum, (b.calls c).pc = .lockPending seqnum) ∧ m = .pending) := by
  simp only [wants] at h
  cases hpc : (b.calls c).pc with
  | lockWriter => simp_all
  | sending =>
    rw [hpc] at h
    dsimp only at h
    split at h
    · next waits => simp_all
    · cases h
  | lockPending seqnum => simp_all
  | _ => simp_all

theorem wants_reader {b : Bridge} {m : Mutex} (h : b.wants .reader = some m) :
    (b.reader = .receiving ∧ b.split.reader.waits = true ∧ m = .shared) ∨
      (((∃ ret, b.reader = .lockPending ret) ∨ b.reader = .lockDrain) ∧ m = .pending) := by
  simp only [wants] at h
  cases hpc : b.reader with
  | receiving =>
    rw [hpc] at h
    dsimp only at h
    split at h
    · next waits => simp_all
    · cases h
  | lockPending ret => simp_all
  | lockDrain => simp_all
  | _ => simp_all

/-- What a thread holds while it waits comes before what it waits for. -/
theorem Scopes.ordered {b : Bridge} (h : b.Scopes) : Locks.Ordered rank b.holder b.wants := by
  intro t m m' held waits
  cases t with
  | call c =>
    have position := wants_call waits
    cases m with
    | writer =>
      obtain ⟨d, same, owner⟩ := holder_writer.mp held
      obtain rfl := Thread.call.inj same
      have guarded : (b.calls c).pc.guarded = true := (h.writer c).mp owner
      rcases position with ⟨pc, rfl⟩ | ⟨_, _, rfl⟩ | ⟨_, rfl⟩
      · simp [pc, CallPc.guarded] at guarded
      · decide
      · decide
    | shared =>
      obtain ⟨sending, inside⟩ := h.shared_call held
      rcases position with ⟨pc, _⟩ | ⟨_, outside, _⟩ | ⟨⟨_, pc⟩, _⟩
      · simp [sending] at pc
      · simp [WriterPc.not_inShared_of_waits outside] at inside
      · simp [sending] at pc
    | pending =>
      obtain ⟨seqnum, inserting⟩ := h.pending_call held
      rcases position with ⟨pc, _⟩ | ⟨pc, _⟩ | ⟨⟨_, pc⟩, _⟩ <;> simp [inserting] at pc
  | reader =>
    have position := wants_reader waits
    cases m with
    | writer =>
      obtain ⟨_, same, _⟩ := holder_writer.mp held
      cases same
    | shared =>
      obtain ⟨receiving, inside⟩ := h.shared_reader held
      rcases position with ⟨_, outside, _⟩ | ⟨⟨_, pc⟩ | pc, _⟩
      · simp [ReaderPc.not_inShared_of_waits outside] at inside
      · simp [receiving] at pc
      · simp [receiving] at pc
    | pending =>
      rcases h.pending_reader held with ⟨_, here⟩ | here <;>
        rcases position with ⟨pc, _⟩ | ⟨⟨_, pc⟩ | pc, _⟩ <;> simp [here] at pc

end Bridge

end UsbipDevirt
