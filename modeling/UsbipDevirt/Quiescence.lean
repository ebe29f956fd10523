import UsbipDevirt.Callers
import UsbipDevirt.Control
import UsbipDevirt.Deadlock
import UsbipDevirt.Histories

/-!
# What the program can wait for

Where none of its threads can go on, the reader thread needs bytes or has ended, and
every other thread is in an ioctl, in a socket write, or waits for the reply to its
own URB, but for the main thread, which may also join one of these. A mutex is held
only across a socket write, and then others may wait for it. So the threads never
wait for each other alone. It is the kernel or the server that has to move.
-/

namespace UsbipDevirt

open Transition Program Program.Prog

namespace Bridge

/-- The call is writing its command to the socket. -/
def Writing (b : Bridge) (c : CallId) : Prop :=
  (b.calls c).pc = .sending ∧ ∃ seqnum cmd, b.split.writer = .write seqnum cmd

/-- The call has a command to send, and the server does not take what is written: by
the call itself, or by the one that holds the writer mutex. -/
def Unsent (b : Bridge) (c : CallId) : Prop :=
  b.Writing c ∨ (b.calls c).pc = .lockWriter ∧ ∃ d, b.writer = some d ∧ b.Writing d

theorem Unsent.pc {b : Bridge} {c : CallId} (h : b.Unsent c) :
    (b.calls c).pc = .sending ∨ (b.calls c).pc = .lockWriter := by
  rcases h with ⟨sending, _⟩ | ⟨waiting, _⟩
  · exact .inl sending
  · exact .inr waiting

/-- No thread can go on in `submit` or in `reader_thread`, but in a socket write. -/
def Still (b : Bridge) : Prop :=
  (∀ c fates, ¬ b.Writing c → b.callStep c fates = none) ∧ b.readerStep = none ∧
    ∀ seqnum, b.drainStep seqnum = none

/-- No other mutex is held across the write. -/
theorem Scopes.holder_ne_of_writing {b : Bridge} (scopes : b.Scopes) {c : CallId}
    (writing : b.Writing c) {m : Mutex} (inner : m ≠ .writer) :
    b.holder m ≠ some (.call c) := by
  obtain ⟨pc, seqnum, cmd, writer⟩ := writing
  intro held
  cases m with
  | writer => exact inner rfl
  | shared =>
    obtain ⟨_, inside⟩ := scopes.shared_call held
    simp [writer, WriterPc.inShared] at inside
  | pending =>
    obtain ⟨k, inserting⟩ := scopes.pending_call held
    cases pc.symm.trans inserting

namespace Still

variable {b : Bridge}

theorem writing_of_enabled (still : b.Still) {t : Thread} (enabled : b.Enabled t) :
    ∃ c, t = .call c ∧ b.Writing c := by
  obtain ⟨calls, reader, drain⟩ := still
  cases t with
  | call c =>
    refine ⟨c, rfl, ?_⟩
    by_contra elsewhere
    have moves := enabled []
    simp [calls c [] elsewhere] at moves
  | reader =>
    rcases enabled with moves | ⟨seqnum, moves⟩
    · simp [reader] at moves
    · simp [drain] at moves

variable (still : b.Still) (scopes : b.Scopes) (fresh : b.Fresh)

include still scopes fresh

theorem unlocked {m : Mutex} (inner : m ≠ .writer) : b.holder m = none := by
  rw [Option.eq_none_iff_forall_ne_some]
  intro t held
  obtain ⟨c, rfl, writing⟩ := still.writing_of_enabled (scopes.inner_enabled fresh inner held)
  exact scopes.holder_ne_of_writing writing inner held

theorem not_behind (t : Thread) : ¬ b.Behind t := by
  rintro ⟨m, u, inner, _, held, _⟩
  cases (still.unlocked scopes fresh inner).symm.trans held

theorem reader : b.AwaitsBytes ∨ b.reader = .finished := by
  rcases scopes.reader_cases fresh with enabled | awaits | finished | behind
  · obtain ⟨_, same, _⟩ := still.writing_of_enabled enabled
    cases same
  · exact .inl awaits
  · exact .inr finished
  · exact absurd behind (still.not_behind scopes fresh _)

/-- Who holds the writer mutex is in its socket write. -/
theorem writing_of_owner {c : CallId} (owner : b.writer = some c) : b.Writing c := by
  rcases scopes.writer_enabled fresh owner with enabled | behind
  · obtain ⟨_, same, writing⟩ := still.writing_of_enabled enabled
    cases same
    exact writing
  · exact absurd behind (still.not_behind scopes fresh _)

theorem holder_writing {m : Mutex} {t : Thread} (held : b.holder m = some t) :
    m = .writer ∧ ∃ c, t = .call c ∧ b.Writing c := by
  by_cases outer : m = .writer
  · subst outer
    obtain ⟨c, rfl, owner⟩ := holder_writer.mp held
    exact ⟨rfl, c, rfl, still.writing_of_owner scopes fresh owner⟩
  · cases (still.unlocked scopes fresh outer).symm.trans held

/-- A call that is not over has its command to send, or waits for its answer, and
then its sender is kept in the map. -/
theorem call_cases {c : CallId} (underWay : (b.calls c).pc.underWay = true) : b.Unsent c ∨
    (b.calls c).pc = .recv ∧ (b.calls c).channel = [] ∧ ∃ k, b.pending.lookup k = some c := by
  have writes (guarded : (b.calls c).pc.guarded = true) : b.Unsent c :=
    .inl (still.writing_of_owner scopes fresh (scopes.owner guarded))
  cases pc : (b.calls c).pc with
  | idle | returned | panicked => simp [pc, CallPc.underWay] at underWay
  | sendSubmit | sending | lockPending | insert | unlockWriter =>
    exact .inl (writes (by rw [pc]; rfl))
  | lockWriter =>
    cases owner : b.writer with
    | some d =>
      exact .inl (.inr ⟨pc, d, owner, still.writing_of_owner scopes fresh owner⟩)
    | none =>
      have stuck := still.1 c [] (by simp [Writing, pc])
      simp only [callStep, pc, owner, if_true] at stuck
      split at stuck <;> cases stuck
  | recv =>
    have stuck := still.1 c [] (by simp [Writing, pc])
    simp only [callStep, pc] at stuck
    split at stuck
    · cases stuck
    · next channel =>
      refine .inr ⟨rfl, channel, ?_⟩
      split at stuck
      · next held =>
        rcases held with held | carries
        · exact (Table.holds_iff ..).mp held
        · rcases still.reader scopes fresh with ⟨⟨at_, _⟩, _⟩ | at_ <;>
            simp [at_, ReaderThread.carries] at carries
      · cases stuck

/-- One whose sender is in the map, or on its way. -/
theorem recv {c : CallId} (waiting : (b.calls c).pc.waiting = true) :
    (b.calls c).pc = .recv ∧ (b.calls c).channel = [] ∧ ∃ k, b.pending.lookup k = some c := by
  rcases still.call_cases scopes fresh (CallPc.underWay_of_waiting waiting) with unsent | recv
  · rcases unsent.pc with pc | pc <;> simp [pc, CallPc.waiting] at waiting
  · exact recv

end Still

end Bridge

namespace System

/-- What the program does to the bridge. -/
theorem program_bridge {s s' : System} {a : Action} (move : s.step a = some s') :
    s'.bridge = s.bridge ∨ (∃ c request, s.bridge.start c request = some s'.bridge) ∨
      ∃ b, a = .bridge b ∧ s.bridge.step b = some s'.bridge := by
  cases step_cases move with
  | main step =>
    cases step with
    | submit rest call start => exact .inr (.inl ⟨_, _, start⟩)
    | _ => exact .inl rfl
  | thread live step =>
    cases step with
    | submit rest call start => exact .inr (.inl ⟨_, _, start⟩)
    | _ => exact .inl rfl
  | bridge step => exact .inr (.inr ⟨_, rfl, step⟩)

/-- Everything but what the kernel answers and what the server sends. A socket write is
taken to return. -/
def Action.internal : Action → Bool
  | .main (.ioctl _) | .thread _ (.ioctl _) | .bridge (.deliver _) | .bridge (.close _) => false
  | _ => true

/-- The program by itself does nothing more, and no socket write is under way. -/
def Quiescent (s : System) : Prop := ∀ a : Action, a.internal = true → s.step a = none

/-- How a socket write goes on is for the server to say. -/
def Action.writes (s : System) : Action → Prop
  | .bridge (.call c _) => s.bridge.Writing c
  | _ => False

/-- The program by itself does nothing more, unless a socket write goes on. -/
def Standstill (s : System) : Prop :=
  ∀ a : Action, a.internal = true → ¬ a.writes s → s.step a = none

theorem Standstill.still {s : System} (h : s.Standstill) : s.bridge.Still := by
  refine ⟨fun c fates elsewhere => ?_, ?_, fun seqnum => ?_⟩
  · exact Option.map_eq_none_iff.mp (h (.bridge (.call c fates)) rfl elsewhere)
  · exact Option.map_eq_none_iff.mp (h (.bridge .reader) rfl id)
  · exact Option.map_eq_none_iff.mp (h (.bridge (.drain seqnum)) rfl id)

/-- The thread is in an ioctl. -/
def InIoctl (s : System) : Caller → Prop
  | .main => ∃ call k, s.main.rest = .op (.ioctl call) k
  | .data t => ∃ thread call k, s.threads t = some thread ∧
      thread.activity.rest = .op (.ioctl call) k

/-- The thread is in `rx.recv()`, and its sender in `bridge.pending`. -/
def AwaitsReply (s : System) (p : Caller) : Prop :=
  ∃ c k, s.AtSubmit p ∧ s.callOf p = some c ∧ (s.bridge.calls c).pc = .recv ∧
    (s.bridge.calls c).channel = [] ∧ s.bridge.pending.lookup k = some c

/-- The thread has a command to send that the server does not take. -/
def AwaitsWrite (s : System) (p : Caller) : Prop :=
  ∃ c, s.AtSubmit p ∧ s.callOf p = some c ∧ s.bridge.Unsent c

theorem not_inIoctl {s : System} {p : Caller} (submits : s.AtSubmit p) : ¬ s.InIoctl p := by
  cases p with
  | main =>
    obtain ⟨request, k, rest⟩ := submits
    rintro ⟨call, _, other⟩
    cases rest.symm.trans other
  | data t =>
    obtain ⟨thread, request, k, live, rest⟩ := submits
    rintro ⟨_, call, _, found, other⟩
    cases live.symm.trans found
    cases rest.symm.trans other

theorem AwaitsWrite.pc_of_call {s : System} {p : Caller} {c : CallId} (h : s.AwaitsWrite p)
    (call : s.callOf p = some c) :
    (s.bridge.calls c).pc = .sending ∨ (s.bridge.calls c).pc = .lockWriter := by
  obtain ⟨_, _, mine, unsent⟩ := h
  obtain rfl := Option.some.inj (mine.symm.trans call)
  exact unsent.pc

/-- What the main thread may wait for. -/
inductive MainAwaits (s : System) : Prop where
  | kernel (inIoctl : s.InIoctl .main)
  | reply (awaits : s.AwaitsReply .main)
  | write (awaits : s.AwaitsWrite .main)
  | thread {t : ThreadId} (joins : s.Joins t) (live : s.threads t ≠ none)
  | failed {e : IoError} (rest : s.main.rest = .done (.error e))
  | panicked {c : CallId} (call : s.main.call = some c)
      (pc : (s.bridge.calls c).pc = .panicked)

/-- Where its call waits for the writer mutex, it waits for nothing else. -/
theorem MainAwaits.awaitsWrite {s : System} (h : s.MainAwaits) (callers : s.Callers) {c : CallId}
    (call : s.main.call = some c) (pc : (s.bridge.calls c).pc = .lockWriter) :
    s.AwaitsWrite .main := by
  have submits := callers.submitting .main c call
  obtain ⟨request, k, rest⟩ := id submits
  cases h with
  | kernel inIoctl => exact absurd inIoctl (not_inIoctl submits)
  | reply awaits =>
    obtain ⟨_, _, _, other, recv, _⟩ := awaits
    obtain rfl := Option.some.inj (call.symm.trans other)
    cases pc.symm.trans recv
  | write awaits => exact awaits
  | thread joins =>
    obtain ⟨_, other⟩ := joins
    cases rest.symm.trans other
  | failed other => cases rest.symm.trans other
  | panicked other panicked =>
    obtain rfl := Option.some.inj (call.symm.trans other)
    cases pc.symm.trans panicked

section Threads

variable {s : System} (h : s.Standstill) (callers : s.Callers) (scopes : s.bridge.Scopes)
  (fresh : s.bridge.Fresh)

/-- A thread in `submit` has entered it: there is a call to be had. -/
theorem Callers.start_some (callers : s.Callers) (request : UrbRequest) :
    ∃ bridge, s.bridge.start s.called request = some bridge := by
  have idle := callers.unused s.called (Nat.le_refl _)
  simp [Bridge.start, idle]

include h scopes fresh in
theorem Standstill.submit_cases {p : Caller} {c : CallId} (submits : s.AtSubmit p)
    (call : s.callOf p = some c) (underWay : (s.bridge.calls c).pc.underWay = true) :
    s.AwaitsReply p ∨ s.AwaitsWrite p := by
  rcases h.still.call_cases scopes fresh underWay with unsent | ⟨pc, channel, k, lookup⟩
  · exact .inr ⟨c, submits, call, unsent⟩
  · exact .inl ⟨c, k, submits, call, pc, channel, lookup⟩

include h scopes fresh in
theorem Standstill.awaitsReply {p : Caller} {c : CallId} (submits : s.AtSubmit p)
    (call : s.callOf p = some c) (waiting : (s.bridge.calls c).pc.waiting = true) :
    s.AwaitsReply p := by
  obtain ⟨pc, channel, k, lookup⟩ := h.still.recv scopes fresh waiting
  exact ⟨c, k, submits, call, pc, channel, lookup⟩

/-- Where a call that has begun stands. -/
theorem Callers.call_cases (callers : s.Callers) {p : Caller} {c : CallId}
    (call : s.callOf p = some c) : (s.bridge.calls c).pc.underWay = true ∨
      (∃ result, (s.bridge.calls c).pc = .returned result) ∨
      (s.bridge.calls c).pc = .panicked := by
  have begun := (callers.used p c call).2
  cases pc : (s.bridge.calls c).pc with
  | idle => exact absurd pc begun
  | returned result => exact .inr (.inl ⟨result, rfl⟩)
  | panicked => exact .inr (.inr rfl)
  | _ => exact .inl rfl

include h callers scopes fresh in
theorem Standstill.main_cases : s.MainAwaits := by
  cases rest : s.main.rest with
  | done result =>
    cases result with
    | error e => exact .failed rest
    | ok vars =>
      have stuck : s.mainStep .next = none := h (.main .next) rfl id
      simp [mainStep, rest] at stuck
  | op o k =>
    cases o with
    | ioctl call => exact .kernel ⟨call, k, rest⟩
    | spawn worker =>
      have stuck : s.mainStep .spawn = none := h (.main .spawn) rfl id
      simp [mainStep, Activity.spawn, rest] at stuck
    | join t =>
      refine .thread ⟨k, rest⟩ fun ended => ?_
      have stuck : s.mainStep .join = none := h (.main .join) rfl id
      simp [mainStep, Activity.join, rest, ended] at stuck
    | submit request =>
      cases call : s.main.call with
      | none =>
        obtain ⟨bridge, start⟩ := callers.start_some request
        have stuck : s.mainStep .submit = none := h (.main .submit) rfl id
        simp [mainStep, Activity.submit, rest, call, start] at stuck
      | some c =>
        rcases callers.call_cases (p := .main) call with underWay | ⟨result, pc⟩ | pc
        · have submits : s.AtSubmit .main := ⟨request, k, rest⟩
          rcases h.submit_cases scopes fresh submits call underWay with awaits | awaits
          · exact .reply awaits
          · exact .write awaits
        · have stuck : s.mainStep .resume = none := h (.main .resume) rfl id
          simp [mainStep, Activity.resume, rest, call, pc] at stuck
        · exact .panicked call pc

include h callers scopes fresh in
theorem Standstill.thread_cases {t : ThreadId} {thread : DataThread}
    (live : s.threads t = some thread)
    (uses : Uses (fun o => (∃ request, o = .submit request) ∨ ∃ call, o = .ioctl call)
      thread.activity.rest) :
    s.InIoctl (.data t) ∨ s.AwaitsReply (.data t) ∨ s.AwaitsWrite (.data t) := by
  have stuck (move : Move) (inside : ∀ reply, move ≠ .ioctl reply) :
      s.threadStep t thread move = none := by
    have still := h (.thread t move)
      (by cases move <;> first | rfl | exact absurd rfl (inside _)) id
    simpa only [step, live, Option.bind_some] using still
  cases rest : thread.activity.rest with
  | done result =>
    have stuck := stuck .next (by simp)
    cases result with
    | error e => simp [threadStep, rest] at stuck
    | ok buf => cases buf <;> simp [threadStep, rest] at stuck
  | op o k =>
    rw [rest] at uses
    rcases uses.1 with ⟨request, rfl⟩ | ⟨call, rfl⟩
    · right
      have submits : s.AtSubmit (.data t) := ⟨thread, request, k, live, rest⟩
      cases call : thread.activity.call with
      | none =>
        obtain ⟨bridge, start⟩ := callers.start_some request
        have stuck := stuck .submit (by simp)
        simp [threadStep, Activity.submit, rest, call, start] at stuck
      | some c =>
        have mine : s.callOf (.data t) = some c := by simp [callOf, live, call]
        rcases callers.call_cases mine with underWay | ⟨result, pc⟩ | pc
        · exact h.submit_cases scopes fresh submits mine underWay
        · have stuck := stuck .resume (by simp)
          simp [threadStep, Activity.resume, rest, call, pc] at stuck
        · have stuck : s.step (.unwind t) = none := h (.unwind t) rfl id
          simp [step, live, unwind, call, pc] at stuck
    · exact .inl ⟨thread, call, k, live, rest⟩

include h callers in
/-- A call that has returned is left. -/
theorem Standstill.not_returned {p : Caller} {c : CallId} (call : s.callOf p = some c)
    (result : Except IoError RetSubmit) : (s.bridge.calls c).pc ≠ .returned result := by
  intro pc
  cases p with
  | main =>
    obtain ⟨request, k, rest⟩ := callers.submitting _ c call
    have call : s.main.call = some c := call
    have stuck : s.mainStep .resume = none := h (.main .resume) rfl id
    simp [mainStep, Activity.resume, rest, call, pc] at stuck
  | data t =>
    obtain ⟨thread, request, k, live, rest⟩ := callers.submitting _ c call
    have call : thread.activity.call = some c := by simpa [callOf, live] using call
    have stuck : s.step (.thread t .resume) = none := h (.thread t .resume) rfl id
    simp [step, live, threadStep, Activity.resume, rest, call, pc] at stuck

end Threads

/-- A data thread at rest, in any run. -/
theorem Standstill.rests {build : Build} {input : Input} {output : Output}
    {busnum devnum : UInt32} {log : SystemLog} {s : System} (still : s.Standstill)
    (run : Logged perform (imported build input output busnum devnum) log s) {t : ThreadId}
    (live : s.threads t ≠ none) :
    s.InIoctl (.data t) ∨ s.AwaitsReply (.data t) ∨ s.AwaitsWrite (.data t) := by
  have reached := run.reaches
  have callers : s.Callers := callers_reachable reached
  have scopes := Bridge.scopes_reachable (reaches_bridge reached)
  have fresh := Bridge.fresh_reachable (reaches_bridge reached)
  obtain ⟨thread, live⟩ := Option.ne_none_iff_exists'.mp live
  obtain ⟨past, _⟩ := (histories_of_run run).live live
  obtain ⟨_, _, standing, _⟩ := past.standing
  refine still.thread_cases callers scopes fresh live (Uses.after ?_ standing).2
  exact uses_iteration (fun request => .inl ⟨request, rfl⟩) (fun _ _ => .inr ⟨_, rfl⟩)
    (fun _ => .inr ⟨_, rfl⟩) thread.worker thread.activity.vars

/-- Where the program by itself does nothing more, a mutex is held only by a thread in
its socket write, and that is the writer's; the reader thread needs bytes or has ended;
a data thread is in an ioctl, waits for the reply to its URB, or has a command to send
that the server does not take; and so is the main thread, unless it joins such a thread
or is at its end. -/
theorem standstill_awaits {build : Build} {input : Input} {output : Output}
    {busnum devnum : UInt32} {s : System}
    (run : Reaches System.step always (imported build input output busnum devnum) s)
    (still : s.Standstill) :
    (∀ m t, s.bridge.holder m = some t → m = .writer ∧
      ∃ p c, t = .call c ∧ s.callOf p = some c ∧ s.bridge.Writing c) ∧
      (s.bridge.AwaitsBytes ∨ s.bridge.reader = .finished) ∧
      (∀ t, s.threads t ≠ none →
        s.InIoctl (.data t) ∨ s.AwaitsReply (.data t) ∨ s.AwaitsWrite (.data t)) ∧
      s.MainAwaits := by
  have callers : s.Callers := callers_reachable run
  have scopes := Bridge.scopes_reachable (reaches_bridge run)
  have fresh := Bridge.fresh_reachable (reaches_bridge run)
  obtain ⟨log, logged⟩ := Logged.of_reaches run
  refine ⟨fun m t held => ?_, still.still.reader scopes fresh,
    fun t live => still.rests logged live, still.main_cases callers scopes fresh⟩
  obtain ⟨outer, c, rfl, writing⟩ := still.still.holder_writing scopes fresh held
  obtain ⟨p, call⟩ := callers.owned c (by rw [writing.1]; rfl)
  exact ⟨outer, p, c, rfl, call, writing⟩

/-! The test of `Standstill` on the identifiers in use. -/

def callRests (b : Bridge) (c : CallId) : Bool :=
  match (b.calls c).pc with
  | .idle | .returned _ | .panicked => true
  | .recv => decide ((b.calls c).channel = [] ∧ b.SenderHeld c)
  | .lockWriter => b.writer.isSome
  | .sending => match b.split.writer with
    | .write _ _ => true
    | _ => false
  | _ => false

theorem callStep_of_callRests {b : Bridge} {c : CallId} (rests : callRests b c = true)
    (fates : List Fate) (elsewhere : ¬ b.Writing c) : b.callStep c fates = none := by
  unfold callRests at rests
  cases pc : (b.calls c).pc with
  | recv =>
    simp only [pc, decide_eq_true_eq] at rests
    simp [Bridge.callStep, pc, rests]
  | lockWriter =>
    simp only [pc, Option.isSome_iff_ne_none] at rests
    simp [Bridge.callStep, pc, rests]
  | sending =>
    simp only [pc] at rests
    split at rests
    · next writer => exact absurd ⟨pc, _, _, writer⟩ elsewhere
    · cases rests
  | idle | returned | panicked => simp [Bridge.callStep, pc]
  | _ => simp [pc] at rests

def threadRests (s : System) (t : ThreadId) (thread : DataThread) : Bool :=
  [Move.submit, .resume, .next].all (fun move => (s.threadStep t thread move).isNone) &&
    (s.unwind t thread).isNone

def atRest (s : System) : Bool :=
  [Move.submit, .resume, .spawn, .join, .next].all (fun move => (s.mainStep move).isNone) &&
    (List.range s.spawned).all (fun t => (s.threads t).all (s.threadRests t)) &&
    (List.range s.called).all (callRests s.bridge) && s.bridge.readerStep.isNone &&
    !s.bridge.reader.inPending

theorem Callers.standstill_of_atRest {s : System} (callers : s.Callers)
    (rests : s.atRest = true) : s.Standstill := by
  simp only [atRest, Bool.and_eq_true, List.all_eq_true, List.mem_range] at rests
  obtain ⟨⟨⟨⟨main, threads⟩, calls⟩, reader⟩, running⟩ := rests
  have rests {t : ThreadId} {thread : DataThread} (live : s.threads t = some thread) :
      s.threadRests t thread = true := by
    have spawned : t < s.spawned := by
      by_contra later
      cases live.symm.trans (callers.unspawned t (Nat.le_of_not_lt later))
    simpa [live] using threads t spawned
  intro a inside elsewhere
  cases a with
  | main move =>
    show s.mainStep move = none
    cases move with
    | ioctl => cases inside
    | _ => exact Option.isNone_iff_eq_none.mp (main _ (by simp))
  | thread t move =>
    cases live : s.threads t with
    | none => simp [System.step, live]
    | some thread =>
      have rests := rests live
      simp only [threadRests, Bool.and_eq_true, List.all_eq_true] at rests
      simp only [System.step, live, Option.bind_some]
      cases move with
      | ioctl => cases inside
      | spawn | join => rfl
      | _ => exact Option.isNone_iff_eq_none.mp (rests.1 _ (by simp))
  | unwind t =>
    cases live : s.threads t with
    | none => simp [System.step, live]
    | some thread =>
      have rests := rests live
      simp only [threadRests, Bool.and_eq_true] at rests
      simpa [System.step, live] using rests.2
  | bridge a =>
    cases a with
    | start c request => rfl
    | call c fates =>
      have still : s.bridge.callStep c fates = none := by
        by_cases used : c < s.called
        · exact callStep_of_callRests (calls c used) fates elsewhere
        · simp [Bridge.callStep, callers.unused c (Nat.le_of_not_lt used)]
      simp [System.step, Bridge.step, still]
    | reader => simp [System.step, Bridge.step, Option.isNone_iff_eq_none.mp reader]
    | drain seqnum =>
      have still : s.bridge.drainStep seqnum = none := by
        cases pc : s.bridge.reader <;> simp [Bridge.drainStep, pc]
        simp [pc, ReaderThread.inPending] at running
      simp [System.step, Bridge.step, still]
    | deliver | close => cases inside

/-- The data thread is writing its command when the host asks for the configuration
descriptor once more. -/
def askWhileWriting : List Action :=
  readConfig 0 1 configDescriptor ++ configured 1 2 ++ [.thread 0 .submit] ++
    List.replicate 4 (.bridge (.call 2 [])) ++
    [.main (.ioctl (fetchedControl (getConfigDescriptor 9))), .main .submit]

/-- The data thread writes, and the main thread wants to. -/
def unread (s : System) : Bool :=
  s.atRest && (s.threads 0).any (fun thread => decide (thread.activity.call = some 2)) &&
    decide (s.bridge.writer = some 2 ∧ s.main.call = some 3) &&
    match (s.bridge.calls 2).pc, (s.bridge.calls 3).pc with
    | .sending, .lockWriter => true
    | _, _ => false

/-- The host resets the bus while the interrupt endpoint has nothing to report: the main
thread joins the data thread, which waits for its reply. Or the server does not read:
the data thread is in its socket write, and the main thread waits behind it. -/
theorem standstill_awaits_either :
    (∃ s : System, s.Standstill ∧ s.Joins 0 ∧ s.bridge.holder .writer = none ∧
      s.AwaitsReply (.data 0)) ∧
    ∃ s : System, s.Standstill ∧ s.AwaitsWrite (.data 0) ∧ s.AwaitsWrite .main ∧
      ∃ p c, s.bridge.holder .writer = some (.call c) ∧ s.callOf p = some c ∧
        s.bridge.Writing c := by
  constructor
  · obtain ⟨s, run, found⟩ := Reaches.of_exec_any System.step always_of_anyStep device
      resetWhileIdle (fun s => waitsForIdle s && s.atRest && decide (s.bridge.writer = none))
      (by decide +kernel)
    simp only [Bool.and_eq_true, decide_eq_true_eq] at found
    obtain ⟨⟨waits, rests⟩, free⟩ := found
    obtain ⟨joins, ⟨thread, live, begun, request, k, rest⟩, pc, -⟩ := joinWaits_of waits
    have still := (callers_reachable run : s.Callers).standstill_of_atRest rests
    have call : s.callOf (.data 0) = some 2 := by simp [callOf, live, begun]
    obtain ⟨-, -, threads, -⟩ := standstill_awaits run still
    refine ⟨s, still, joins, by simp [Bridge.holder, free], ?_⟩
    rcases threads 0 (by simp [live]) with inIoctl | awaits | unsent
    · exact absurd inIoctl (not_inIoctl ⟨thread, request, k, live, rest⟩)
    · exact awaits
    · rcases unsent.pc_of_call call with sending | waiting
      · cases pc.symm.trans sending
      · cases pc.symm.trans waiting
  · obtain ⟨s, run, found⟩ := Reaches.of_exec_any System.step always_of_anyStep device
      askWhileWriting unread (by decide +kernel)
    simp only [unread, Bool.and_eq_true, decide_eq_true_eq, Option.any_eq_true] at found
    obtain ⟨⟨⟨rests, thread, live, begun⟩, owner, mine⟩, stand⟩ := found
    have callers : s.Callers := callers_reachable run
    have still := callers.standstill_of_atRest rests
    have call : s.callOf (.data 0) = some 2 := by simp [callOf, live, begun]
    obtain ⟨held, -, threads, waits⟩ := standstill_awaits run still
    have held := held .writer (.call 2) (by simp [Bridge.holder, owner])
    split at stand
    · next sending waiting =>
      refine ⟨s, still, ?_, ?_, ?_⟩
      · rcases threads 0 (by simp [live]) with inIoctl | ⟨c, _, _, other, pc, _⟩ | unsent
        · exact absurd inIoctl (not_inIoctl (callers.submitting _ 2 call))
        · cases call.symm.trans other
          cases sending.symm.trans pc
        · exact unsent
      · exact waits.awaitsWrite callers mine waiting
      · obtain ⟨_, p, c, same, begun, writing⟩ := held
        cases same
        exact ⟨p, 2, by simp [Bridge.holder, owner], begun, writing⟩
    · cases stand

end System

end UsbipDevirt
