import UsbipDevirt.EndpointData
import UsbipDevirt.Quiescence

/-!
# After the server

When the stream has ended the reader thread drains the map and finishes, and the
program goes on without it. What the drain finds is answered with an error. A
sender that is inserted later stays in the map, and its thread in `submit`: so
once the program has come to rest, the log tells who is left there.
-/

namespace UsbipDevirt

open Transition

namespace Bridge

/-- The call that inserts its sender when the drain is over. -/
def insertsLate (b : Bridge) : Action → Option CallId
  | .call c _ => match (b.calls c).pc, b.reader with
    | .insert _, .finished => some c
    | _, _ => none
  | _ => none

variable {b b' : Bridge} {a : Action}

theorem insertsLate_eq {c : CallId} (late : b.insertsLate a = some c) :
    b.reader = .finished ∧ ∃ k fates, (b.calls c).pc = .insert k ∧ a = .call c fates := by
  cases a with
  | call d fates =>
    simp only [insertsLate] at late
    split at late
    · next k pc finished =>
      obtain rfl := Option.some.inj late
      exact ⟨finished, k, fates, pc, rfl⟩
    · cases late
  | _ => cases late

/-- The reader thread does not begin again. -/
theorem step_finished (step : b.step a = some b') (finished : b.reader = .finished) :
    b'.reader = .finished := by
  cases step_cases step with
  | call move => cases move <;> exact finished
  | reader move =>
    cases move with
    | reading | unlink => exact finished
    | drained => rfl
    | submit pc | error pc | lockPending pc | found pc | unknown pc | deliver pc | lockDrain pc =>
      cases finished.symm.trans pc
  | drain | start | deliver | close => exact finished

/-- Where the reader thread has finished, it has just emptied the map, or only an
insert has changed it. -/
inductive AfterDrain (b : Bridge) (a : Action) (b' : Bridge) : Prop where
  | emptied (running : b.reader ≠ .finished) (empty : b'.pending = ∅)
  | same (finished : b.reader = .finished) (none : b.insertsLate a = none)
      (pending : b'.pending = b.pending)
  | inserted {c : CallId} {k : UInt32} (late : b.insertsLate a = some c)
      (pc : (b.calls c).pc = .insert k) (pending : b'.pending = b.pending.insert k c)

theorem afterDrain (step : b.step a = some b') (finished : b'.reader = .finished) :
    AfterDrain b a b' := by
  cases step_cases step with
  | @call c fates _ move =>
    cases move with
    | insert pc =>
      have finished : b.reader = .finished := finished
      exact .inserted (by simp only [insertsLate, pc, finished]) pc rfl
    | poisoned pc | lockWriter pc | allocated pc | panicked pc | writing pc | written pc
    | failed pc | lockPending pc | unlockWriter pc | received pc | disconnected pc =>
      exact .same finished (by simp only [insertsLate, pc]) rfl
  | reader move =>
    cases move with
    | reading | unlink => exact .same finished rfl rfl
    | drained pc empty => exact .emptied (by simp [pc]) empty
    | submit | error | lockPending | found | unknown | deliver | lockDrain => cases finished
  | drain pc =>
    have finished : b.reader = .finished := finished
    cases pc.symm.trans finished
  | start | deliver | close => exact .same finished rfl rfl

end Bridge

namespace System

/-- The same in the log of a run. -/
def lateAt (e : Entry System Action Unit) : Option CallId :=
  match e.action with
  | .bridge a => e.before.bridge.insertsLate a
  | _ => none

/-- The calls that have inserted their senders after the drain. -/
def lateSenders (log : SystemLog) : List CallId := log.filterMap lateAt

/-- Once the reader thread has finished, their senders are those in the map. -/
structure Late (log : SystemLog) (s : System) : Prop where
  sent : s.bridge.reader = .finished → ∀ k c, s.bridge.pending.lookup k = some c →
    c ∈ lateSenders log
  kept : ∀ c ∈ lateSenders log, s.bridge.reader = .finished ∧
    ∃ k, s.bridge.pending.lookup k = some c

theorem lateSenders_snoc (log : SystemLog) (e : Entry System Action Unit) :
    lateSenders (log ++ [e]) = lateSenders log ++ (lateAt e).toList := filterMap_snoc ..

variable {log : SystemLog} {s s' : System}

theorem lateAt_bridge (b : Bridge.Action) :
    lateAt ⟨s, .bridge b, (), s'⟩ = s.bridge.insertsLate b := rfl

/-- A step that leaves the map alone. -/
theorem Late.same (h : Late log s) {a : Action} (none : lateAt ⟨s, a, (), s'⟩ = none)
    (reader : s'.bridge.reader = s.bridge.reader)
    (pending : s'.bridge.pending = s.bridge.pending) : Late (log ++ [⟨s, a, (), s'⟩]) s' where
  sent := by
    rw [lateSenders_snoc, none, reader, pending]
    simpa using h.sent
  kept := by
    rw [lateSenders_snoc, none, reader, pending]
    simpa using h.kept

/-- The sender of another call does not replace one in the map. -/
theorem insert_apart (inv : s.bridge.Inv) {c d : CallId} {j k : UInt32}
    (held : s.bridge.pending.lookup j = some d) (pc : (s.bridge.calls c).pc = .insert k) :
    j ≠ k := by
  rintro rfl
  obtain ⟨number, waiting, _⟩ := inv.held j d (.inl held)
  obtain ⟨number', _⟩ := (inv.progress c).of_registering (.inr pc)
  obtain rfl := inv.own c d j number' number
  simp [pc, CallPc.waiting] at waiting

theorem Late.bridge (h : Late log s) (inv : s.bridge.Inv) {b : Bridge.Action}
    (hop : s.bridge.step b = some s'.bridge) : Late (log ++ [⟨s, .bridge b, (), s'⟩]) s' := by
  have known := lateSenders_snoc log ⟨s, .bridge b, (), s'⟩
  rw [lateAt_bridge] at known
  by_cases finished : s'.bridge.reader = .finished
  · cases Bridge.afterDrain hop finished with
    | emptied running empty =>
      have none : lateSenders log = [] := by
        apply List.eq_nil_iff_forall_not_mem.mpr
        exact fun c mem => running (h.kept c mem).1
      have before : s.bridge.insertsLate b = .none := by
        rw [Option.eq_none_iff_forall_ne_some]
        exact fun c late => running (Bridge.insertsLate_eq late).1
      rw [none, before] at known
      exact ⟨fun _ k c lookup => by simp [empty] at lookup, by simp [known]⟩
    | same before none pending => exact h.same none (finished.trans before.symm) pending
    | @inserted c k late pc pending =>
      have before := (Bridge.insertsLate_eq late).1
      rw [late] at known
      constructor
      · intro _ j d lookup
        rw [known, List.mem_append, Option.toList_some, List.mem_singleton]
        simp only [pending, Table.lookup_insert] at lookup
        split at lookup
        · exact .inr (Option.some.inj lookup).symm
        · exact .inl (h.sent before j d lookup)
      · intro d mem
        rw [known, List.mem_append, Option.toList_some, List.mem_singleton] at mem
        refine ⟨finished, ?_⟩
        rcases mem with mem | rfl
        · obtain ⟨j, held⟩ := (h.kept d mem).2
          refine ⟨j, ?_⟩
          simp only [pending, Table.lookup_insert, if_neg (insert_apart inv held pc), held]
        · exact ⟨k, by simp [pending]⟩
  · have running : s.bridge.reader ≠ .finished := fun before =>
      finished (Bridge.step_finished hop before)
    have none : s.bridge.insertsLate b = .none := by
      rw [Option.eq_none_iff_forall_ne_some]
      exact fun c late => running (Bridge.insertsLate_eq late).1
    refine ⟨fun ended => absurd ended finished, fun c mem => ?_⟩
    rw [known, none] at mem
    exact absurd (h.kept c (by simpa using mem)).1 running

theorem Late.step (h : Late log s) (inv : s.bridge.Inv) {a : Action} (move : s.step a = some s') :
    Late (log ++ [⟨s, a, (), s'⟩]) s' := by
  cases a with
  | bridge b =>
    cases b with
    | start c request => cases move
    | _ =>
      obtain ⟨bridge, hop, rfl⟩ := Option.map_eq_some_iff.mp move
      exact h.bridge inv hop
  | _ =>
    rcases program_bridge move with same | ⟨c, request, start⟩ | ⟨b, ⟨⟩, _⟩
    · exact h.same rfl (by rw [same]) (by rw [same])
    · obtain ⟨_, bridge⟩ := Bridge.start_cases start
      exact h.same rfl (by rw [bridge]; rfl) (by rw [bridge]; rfl)

theorem late_of_run {build : Build} {input : Input} {output : Output} {busnum devnum : UInt32}
    (run : Logged perform (imported build input output busnum devnum) log s)
    (bound : s.bridge.split.issued.length < 2 ^ 32 - 1) : Late log s := by
  induction run with
  | start => exact ⟨by rintro ⟨⟩, by simp [lateSenders]⟩
  | next earlier hop ih =>
    obtain ⟨_, move, same⟩ := Option.map_eq_some_iff.mp hop
    cases same
    have grown := step_issued_le move
    exact (ih (by omega)).step (sound_of_run earlier (by omega)).inv move

/-- A sender that was inserted after the drain is never answered. And once the stream
has ended and the program has come to rest, the reader thread is gone, those who are
left in `rx.recv()` are exactly the threads of these senders, every other data thread
is in an ioctl or has a command to send that the server does not take, and so is the
main thread, unless it joins one of them or is at its end. -/
theorem server_gone {build : Build} {input : Input} {output : Output} {busnum devnum : UInt32}
    (run : Logged perform (imported build input output busnum devnum) log s)
    (bound : s.bridge.split.issued.length < 2 ^ 32 - 1) :
    (∀ c ∈ lateSenders log, (s.bridge.calls c).pc.waiting = true ∧
      (s.bridge.calls c).channel = []) ∧
    (s.bridge.split.closed ≠ none → s.Standstill →
      s.bridge.reader = .finished ∧
      (∀ p, s.AwaitsReply p ↔ ∃ c ∈ lateSenders log, s.callOf p = some c) ∧
      (∀ t, s.threads t ≠ none →
        s.InIoctl (.data t) ∨ (∃ c ∈ lateSenders log, s.callOf (.data t) = some c) ∨
          s.AwaitsWrite (.data t)) ∧
      s.MainAwaits) := by
  have late := late_of_run run bound
  have inv := (sound_of_run run bound).inv
  have reached := run.reaches
  have callers : s.Callers := callers_reachable reached
  have scopes := Bridge.scopes_reachable (reaches_bridge reached)
  have fresh := Bridge.fresh_reachable (reaches_bridge reached)
  have stuck {c : CallId} (mem : c ∈ lateSenders log) :
      (s.bridge.calls c).pc.waiting = true ∧ (s.bridge.calls c).channel = [] := by
    obtain ⟨_, k, held⟩ := late.kept c mem
    obtain ⟨_, waiting, unused⟩ := inv.held k c (.inl held)
    exact ⟨waiting, unused.1⟩
  refine ⟨fun c mem => stuck mem, fun ended still => ?_⟩
  have finished : s.bridge.reader = .finished := by
    rcases still.still.reader scopes fresh with ⟨_, isOpen, _⟩ | finished
    · exact absurd isOpen ended
    · exact finished
  have sender {p : Caller} (awaits : s.AwaitsReply p) :
      ∃ c ∈ lateSenders log, s.callOf p = some c := by
    obtain ⟨c, k, _, call, _, _, lookup⟩ := awaits
    exact ⟨c, late.sent finished k c lookup, call⟩
  refine ⟨finished, fun p => ⟨sender, ?_⟩, fun t live => ?_,
    still.main_cases callers scopes fresh⟩
  · rintro ⟨c, mem, call⟩
    exact still.awaitsReply scopes fresh (callers.submitting p c call) call (stuck mem).1
  · rcases still.rests run live with inIoctl | awaits | unsent
    · exact .inl inIoctl
    · exact .inr (.inl (sender awaits))
    · exact .inr (.inr unsent)

/-- The stream ends while the data thread waits, which ends with it; then the host asks
for the configuration descriptor once more. -/
def askAfterEnd : List Action :=
  readConfig 0 1 configDescriptor ++ configured 1 2 ++ [.thread 0 .submit] ++ runCall 2 ++
    [.bridge (.close ⟨.unexpectedEof, "failed to fill whole buffer"⟩)] ++
    List.replicate 3 (.bridge .reader) ++ [.bridge (.drain 3), .bridge .reader,
      .bridge (.call 2 []), .thread 0 .resume, .thread 0 .next,
      .main (.ioctl (fetchedControl (getConfigDescriptor 9))), .main .submit] ++ runCall 3

/-- The main thread waits for its reply, and there is no other thread left. -/
def asksInVain (s : System) : Bool :=
  s.atRest && decide (s.bridge.split.issued.length < 2 ^ 32 - 1 ∧
    s.main.call = some 3 ∧ s.bridge.pending.lookup 4 = some 3) &&
    s.bridge.split.closed.isSome && (s.threads 0).isNone

/-- The data thread is gone, and the main thread is left in `submit` for good. -/
theorem server_gone_asked : ∃ (log : SystemLog) (s : System), s.Standstill ∧
    s.bridge.reader = .finished ∧ s.threads 0 = none ∧ s.AwaitsReply .main ∧
      3 ∈ lateSenders log := by
  obtain ⟨s, reached, found⟩ := Reaches.of_exec_any System.step always_of_anyStep device
    askAfterEnd asksInVain (by decide +kernel)
  obtain ⟨log, run⟩ := Logged.of_reaches reached
  simp only [asksInVain, Bool.and_eq_true, decide_eq_true_eq] at found
  obtain ⟨⟨⟨rests, bound, call, lookup⟩, ended⟩, gone⟩ := found
  have callers : s.Callers := callers_reachable reached
  have fresh := Bridge.fresh_reachable (reaches_bridge reached)
  have scopes := Bridge.scopes_reachable (reaches_bridge reached)
  have still := callers.standstill_of_atRest rests
  have waiting := (fresh.held 4 3 lookup).1
  have awaits : s.AwaitsReply .main :=
    still.awaitsReply scopes fresh (callers.submitting .main 3 call) call waiting
  obtain ⟨-, settled⟩ := server_gone run bound
  obtain ⟨finished, left, -⟩ := settled (Option.isSome_iff_ne_none.mp ended) still
  obtain ⟨c, mem, mine⟩ := (left .main).mp awaits
  obtain rfl : c = 3 := Option.some.inj (mine.symm.trans call)
  exact ⟨log, s, still, finished, Option.isNone_iff_eq_none.mp gone, awaits, mem⟩

end System

end UsbipDevirt
