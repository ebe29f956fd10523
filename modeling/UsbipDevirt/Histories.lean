import UsbipDevirt.Joining
import UsbipDevirt.WireOrder

/-!
# What each data thread has done

A run of the whole program keeps a log of its steps. The history of one data
thread, the calls of `submit` it has made and the program it was spawned with
are read off that log, whatever the other threads, the reader thread and the
server did in between. The history is always a run of the thread's loop, and
its answers are those of its own calls.
-/

namespace UsbipDevirt

open Transition Program Program.Prog

/-! ## Histories -/

/-- The calls of `submit` in a trace with what they returned. -/
def answers (es : Trace) : List (UrbRequest × Except IoError RetSubmit) := es.filterMap fun e =>
  match e with
  | ⟨.submit request, result⟩ => some (request, result)
  | _ => none

@[simp] theorem answers_nil : answers [] = [] := rfl

@[simp] theorem answers_append (es fs : Trace) : answers (es ++ fs) = answers es ++ answers fs :=
  List.filterMap_append

@[simp] theorem answers_cons_submit (request : UrbRequest) (result : Reply (.submit request))
    (es : Trace) : answers (⟨.submit request, result⟩ :: es) = (request, result) :: answers es :=
  rfl

@[simp] theorem answers_cons_ioctl (call : Ioctl) (reply : Reply (.ioctl call)) (es : Trace) :
    answers (⟨.ioctl call, reply⟩ :: es) = answers es := rfl

/-- The arguments and the result of a call that has returned. -/
def Call.outcome (call : Call) : Option (UrbRequest × Except IoError RetSubmit) :=
  match call.pc with
  | .returned result => some (call.request, result)
  | _ => none

theorem Call.outcome_eq_some {call : Call} {request : UrbRequest}
    {result : Except IoError RetSubmit} :
    call.outcome = some (request, result) ↔
      call.request = request ∧ call.pc = .returned result := by
  unfold Call.outcome
  cases call.pc <;> simp

section Outcomes

variable {b : Bridge} {cs : List CallId} {as : List (UrbRequest × Except IoError RetSubmit)}

theorem requests_of_outcomes (h : cs.map (fun c => (b.calls c).outcome) = as.map some) :
    cs.map (fun c => (b.calls c).request) = as.map Prod.fst := by
  induction cs generalizing as with
  | nil => simp_all
  | cons c cs ih =>
    cases as with
    | nil => simp at h
    | cons a as =>
      obtain ⟨head, tail⟩ := List.cons.inj h
      rw [List.map_cons, List.map_cons, ih tail, (Call.outcome_eq_some.mp head).1]

theorem outcome_of_mem (h : cs.map (fun c => (b.calls c).outcome) = as.map some) {c : CallId}
    (mem : c ∈ cs) : ∃ a ∈ as, (b.calls c).outcome = some a := by
  have known : (b.calls c).outcome ∈ as.map some := h ▸ List.mem_map_of_mem mem
  obtain ⟨a, ha, same⟩ := List.mem_map.mp known
  exact ⟨a, ha, same.symm⟩

end Outcomes

abbrev SystemLog := List (Entry System System.Action Unit)

namespace System

/-- The program as a machine that returns nothing. -/
def perform (s : System) (a : Action) : Option (Unit × System) :=
  (s.step a).map fun s' => ((), s')

/-- The operation that a step completes for thread `t`. -/
def answeredAt (t : ThreadId) (e : Entry System Action Unit) : Option (Program.Event Reply) :=
  match e.action with
  | .thread u (.ioctl _) | .thread u .resume =>
    if u = t then (e.after.threads t).bind fun thread => thread.activity.trace.getLast? else none
  | _ => none

/-- The call of `submit` that a step begins for thread `t`. -/
def calledAt (t : ThreadId) (e : Entry System Action Unit) : Option CallId :=
  match e.action with
  | .thread u .submit => if u = t then some e.before.called else none
  | _ => none

/-- The call of `submit` that a step begins for the main thread. -/
def mainCalledAt (e : Entry System Action Unit) : Option CallId :=
  match e.action with
  | .main .submit => some e.before.called
  | _ => none

/-- What a step spawns as thread `t`. -/
def spawnedAt (t : ThreadId) (e : Entry System Action Unit) : Option Worker :=
  match e.action, e.before.main.rest with
  | .main .spawn, .op (.spawn worker) _ => if e.before.spawned = t then some worker else none
  | _, _ => none

def history (t : ThreadId) (log : SystemLog) : Trace := log.filterMap (answeredAt t)

def callsOf (t : ThreadId) (log : SystemLog) : List CallId := log.filterMap (calledAt t)

def mainCalls (log : SystemLog) : List CallId := log.filterMap mainCalledAt

def workersOf (t : ThreadId) (log : SystemLog) : List Worker := log.filterMap (spawnedAt t)

/-! ## The history of one thread -/

/-- The iterations of a data thread that were followed by another, each with
its trace, and the buffer they left. -/
inductive Rounds (worker : Worker) : List Trace → List UInt8 → Prop
  | start : Rounds worker [] worker.initial
  | next {ess : List Trace} {es : Trace} {buf buf' : List UInt8} : Rounds worker ess buf →
      Runs (worker.iteration buf) es (.ok (some buf')) → Rounds worker (ess ++ [es]) buf'

/-- The program of a thread, its history and its calls agree with where it stands. -/
structure Past (b : Bridge) (thread : DataThread) (es : Trace) (cs : List CallId) : Prop where
  standing : ∃ ess, Rounds thread.worker ess thread.activity.vars ∧
    After (thread.worker.iteration thread.activity.vars) thread.activity.trace
      thread.activity.rest ∧
    es = ess.flatten ++ thread.activity.trace
  calls : ∃ done, cs = done ++ thread.activity.call.toList ∧
    done.map (fun c => (b.calls c).outcome) = (answers es).map some
  current : ∀ c, thread.activity.call = some c →
    ∃ k, thread.activity.rest = .op (.submit (b.calls c).request) k

/-- The calls below `n` stay what they were, and have returned what they had returned. -/
def CallsKept (b b' : Bridge) (n : CallId) : Prop := ∀ c < n,
  (b'.calls c).request = (b.calls c).request ∧
    ∀ result, (b.calls c).pc = .returned result → (b'.calls c).pc = .returned result

section Past

variable {b b' : Bridge} {thread : DataThread} {es : Trace} {cs : List CallId}

theorem Past.enter (b : Bridge) (worker : Worker) :
    Past b (.enter worker worker.initial) [] [] where
  standing := ⟨[], .start, .nil, rfl⟩
  calls := ⟨[], rfl, rfl⟩
  current := by rintro _ ⟨⟩

theorem Past.frame {n : CallId} (h : Past b thread es cs) (kept : CallsKept b b' n)
    (below : ∀ c ∈ cs, c < n) : Past b' thread es cs := by
  obtain ⟨done, rfl, outcomes⟩ := h.calls
  refine ⟨h.standing, ⟨done, rfl, ?_⟩, fun c call => ?_⟩
  · rw [← outcomes]
    refine List.map_congr_left fun c mem => ?_
    obtain ⟨⟨request, result⟩, _, same⟩ := outcome_of_mem outcomes mem
    obtain ⟨hrequest, hresult⟩ := Call.outcome_eq_some.mp same
    obtain ⟨request', result'⟩ := kept c (below c (List.mem_append_left _ mem))
    rw [same, Call.outcome_eq_some]
    exact ⟨request'.trans hrequest, result' result hresult⟩
  · obtain ⟨k, rest⟩ := h.current c call
    have below : c < n := below c (by simp [call])
    exact ⟨k, (kept c below).1 ▸ rest⟩

/-- A thread is in a call only where its program submits. -/
theorem Past.idle (h : Past b thread es cs)
    (elsewhere : ∀ request k, thread.activity.rest ≠ .op (.submit request) k) :
    thread.activity.call = none := by
  rw [Option.eq_none_iff_forall_ne_some]
  intro c call
  obtain ⟨k, here⟩ := h.current c call
  exact elsewhere _ k here

theorem Past.ioctl {call : Ioctl} {k : IoctlReply → Routine (Option (List UInt8))}
    (h : Past b thread es cs) (rest : thread.activity.rest = .op (.ioctl call) k)
    (reply : IoctlReply) :
    Past b { thread with activity := thread.activity.answered ⟨.ioctl call, reply⟩ (k reply) }
      (es ++ [⟨.ioctl call, reply⟩]) cs := by
  obtain ⟨ess, rounds, after, rfl⟩ := h.standing
  obtain ⟨done, rfl, outcomes⟩ := h.calls
  have idle := h.idle (by simp [rest])
  rw [rest] at after
  refine ⟨⟨ess, rounds, after.snoc, by simp [Activity.answered]⟩, ⟨done, ?_, ?_⟩, by rintro _ ⟨⟩⟩
  · simp [idle, Activity.answered]
  · simpa using outcomes

theorem Past.submit {request : UrbRequest}
    {k : Except IoError RetSubmit → Routine (Option (List UInt8))} {c : CallId}
    (h : Past b thread es cs) (rest : thread.activity.rest = .op (.submit request) k)
    (idle : thread.activity.call = none) (same : (b.calls c).request = request) :
    Past b { thread with activity := { thread.activity with call := some c } } es (cs ++ [c]) := by
  obtain ⟨done, rfl, outcomes⟩ := h.calls
  refine ⟨h.standing, ⟨done, by simp [idle], outcomes⟩, ?_⟩
  rintro _ ⟨⟩
  exact ⟨k, same ▸ rest⟩

theorem Past.resume {request : UrbRequest}
    {k : Except IoError RetSubmit → Routine (Option (List UInt8))} {c : CallId}
    {result : Except IoError RetSubmit} (h : Past b thread es cs)
    (rest : thread.activity.rest = .op (.submit request) k)
    (call : thread.activity.call = some c) (pc : (b.calls c).pc = .returned result) :
    Past b { thread with
        activity := thread.activity.answered ⟨.submit request, result⟩ (k result) }
      (es ++ [⟨.submit request, result⟩]) cs := by
  obtain ⟨ess, rounds, after, rfl⟩ := h.standing
  obtain ⟨done, rfl, outcomes⟩ := h.calls
  obtain ⟨_, here⟩ := h.current c call
  cases rest.symm.trans here
  rw [rest] at after
  refine ⟨⟨ess, rounds, after.snoc, by simp [Activity.answered]⟩, ⟨done ++ [c], ?_, ?_⟩,
    by rintro _ ⟨⟩⟩
  · simp [call, Activity.answered]
  · have here : (b.calls c).outcome = some ((b.calls c).request, result) :=
      Call.outcome_eq_some.mpr ⟨rfl, pc⟩
    simp only [List.map_append, outcomes, answers_append, answers_cons_submit, answers_nil,
      List.map_cons, List.map_nil, here]

theorem Past.next {buf : List UInt8} (h : Past b thread es cs)
    (rest : thread.activity.rest = .done (.ok (some buf))) :
    Past b (.enter thread.worker buf) es cs := by
  obtain ⟨ess, rounds, after, rfl⟩ := h.standing
  obtain ⟨done, rfl, outcomes⟩ := h.calls
  have idle := h.idle (by simp [rest])
  rw [rest] at after
  refine ⟨⟨_, rounds.next after, .nil, by simp [DataThread.enter, Activity.enter]⟩,
    ⟨done, ?_, outcomes⟩, by rintro _ ⟨⟩⟩
  simp [idle, DataThread.enter, Activity.enter]

end Past

/-! ## The histories of all threads -/

/-- What the log tells about thread `t`. -/
inductive Told (log : SystemLog) (s : System) (t : ThreadId) : Prop where
  | unspawned (later : s.spawned ≤ t) (none : s.threads t = none)
      (history : history t log = []) (calls : callsOf t log = []) (workers : workersOf t log = [])
  | past {thread : DataThread} (spawned : t < s.spawned)
      (past : Past s.bridge thread (history t log) (callsOf t log))
      (last : s.threads t = some thread ∨ s.threads t = none)
      (workers : workersOf t log = [thread.worker])

structure Histories (log : SystemLog) (s : System) : Prop where
  told : ∀ t, Told log s t
  called : ∀ t, ∀ c ∈ callsOf t log, c < s.called
  mainCalled : ∀ c ∈ mainCalls log, c < s.called
  apart : ∀ t u c, c ∈ callsOf t log → c ∈ callsOf u log → t = u
  mainApart : ∀ t c, c ∈ callsOf t log → c ∉ mainCalls log

theorem start_callsKept {b b' : Bridge} {c : CallId} {request : UrbRequest}
    (h : b.start c request = some b') :
    CallsKept b b' c := by
  obtain ⟨_, rfl⟩ := Bridge.start_cases h
  intro d below
  rw [Bridge.setCall_calls_of_ne b _ (Nat.ne_of_lt below)]
  exact ⟨rfl, fun _ => id⟩

theorem step_callsKept {b b' : Bridge} {a : Bridge.Action} (h : b.step a = some b')
    (inside : ∀ c request, a ≠ .start c request) (n : CallId) : CallsKept b b' n := by
  intro c _
  refine ⟨?_, fun result pc => by rw [Bridge.step_returned h pc]; exact pc⟩
  rcases Bridge.step_request h c with same | ⟨request, rfl, _⟩
  · exact same
  · exact absurd rfl (inside c request)

theorem callsKept_refl (b : Bridge) (n : CallId) : CallsKept b b n :=
  fun _ _ => ⟨rfl, fun _ => id⟩

/-- A step that does not concern thread `t`. -/
theorem Told.other {log : SystemLog} {s s' : System} {t : ThreadId}
    {e : Entry System Action Unit} (h : Told log s t)
    (below : ∀ c ∈ callsOf t log, c < s.called)
    (kept : CallsKept s.bridge s'.bridge s.called) (threads : s'.threads t = s.threads t)
    (spawned : t < s'.spawned ↔ t < s.spawned) (answered : answeredAt t e = none)
    (called : calledAt t e = none) (worker : spawnedAt t e = none) : Told (log ++ [e]) s' t := by
  have history : history t (log ++ [e]) = history t log := by
    simp [System.history, answered]
  have calls : callsOf t (log ++ [e]) = callsOf t log := by
    simp [callsOf, called]
  have workers : workersOf t (log ++ [e]) = workersOf t log := by
    simp [workersOf, worker]
  cases h with
  | unspawned later none hhistory hcalls hworkers =>
    exact .unspawned (Nat.not_lt.mp (mt spawned.mp (Nat.not_lt.mpr later))) (threads.trans none)
      (history.trans hhistory) (calls.trans hcalls) (workers.trans hworkers)
  | past hspawned past last hworkers =>
    refine .past (spawned.mpr hspawned) ?_ (threads ▸ last) (workers.trans hworkers)
    rw [history, calls]
    exact past.frame kept below

theorem step_kept {s s' : System} {a : Action} (h : s.step a = some s') :
    CallsKept s.bridge s'.bridge s.called ∧ s.called ≤ s'.called := by
  cases step_cases h with
  | main step =>
    cases step with
    | submit rest call start => exact ⟨start_callsKept start, Nat.le_succ _⟩
    | _ => exact ⟨callsKept_refl _ _, Nat.le_refl _⟩
  | thread live step =>
    cases step with
    | submit rest call start => exact ⟨start_callsKept start, Nat.le_succ _⟩
    | _ => exact ⟨callsKept_refl _ _, Nat.le_refl _⟩
  | bridge step inside => exact ⟨step_callsKept step inside _, Nat.le_refl _⟩

/-- A step of thread `t` itself: it completes an operation, begins a call or
goes on to the next iteration. -/
theorem Told.moved {log : SystemLog} {s s' : System} {t : ThreadId} {thread : DataThread}
    {e : Entry System Action Unit} (h : Told log s t) (live : s.threads t = some thread)
    (thread' : DataThread) (last : s'.threads t = some thread' ∨ s'.threads t = none)
    (spawned : s'.spawned = s.spawned) (same : thread'.worker = thread.worker)
    (worker : spawnedAt t e = none)
    (past : Past s.bridge thread (history t log) (callsOf t log) →
      Past s'.bridge thread' (history t log ++ (answeredAt t e).toList)
        (callsOf t log ++ (calledAt t e).toList)) : Told (log ++ [e]) s' t := by
  cases h with
  | unspawned _ none => cases live.symm.trans none
  | @past here hspawned hpast hlast hworkers =>
    obtain rfl : here = thread := by
      rcases hlast with hlast | hlast
      · exact Option.some.inj (hlast.symm.trans live)
      · cases live.symm.trans hlast
    refine .past (spawned ▸ hspawned) ?_ last ?_
    · simp only [history, callsOf, filterMap_snoc]
      exact past hpast
    · simpa [workersOf, worker, same] using hworkers

theorem bridge_cases {s s' : System} {a : Bridge.Action} (h : s.step (.bridge a) = some s') :
    ∃ bridge, s' = { s with bridge } := by
  cases a with
  | start c request => cases h
  | _ =>
    obtain ⟨bridge, _, rfl⟩ := Option.map_eq_some_iff.mp h
    exact ⟨bridge, rfl⟩

theorem unwind_eq {s s' : System} {t : ThreadId} {thread : DataThread}
    (h : s.unwind t thread = some s') : s' = s.setThread t none := by
  unfold unwind at h
  split at h
  · split at h
    · exact (Option.some.inj h).symm
    · cases h
  · cases h

theorem threadStep_others {s s' : System} {t u : ThreadId} {thread : DataThread} {move : Move}
    (h : s.threadStep u thread move = some s') (other : t ≠ u) :
    s'.spawned = s.spawned ∧ s'.threads t = s.threads t := by
  cases threadStep_cases h <;> exact ⟨rfl, Function.update_of_ne other ..⟩

theorem Told.thread {log : SystemLog} {s s' : System} {t : ThreadId} {thread : DataThread}
    {m : Move} (h : Histories log s) (live : s.threads t = some thread)
    (move : s.step (.thread t m) = some s') (stepped : s.threadStep t thread m = some s') :
    Told (log ++ [⟨s, .thread t m, (), s'⟩]) s' t := by
  have below := h.called t
  obtain ⟨kept, _⟩ := step_kept move
  cases m with
  | ioctl reply =>
    obtain ⟨⟨call, activity⟩, hioctl, rfl⟩ := Option.map_eq_some_iff.mp stepped
    obtain ⟨k, rest, rfl⟩ := Activity.ioctl_cases hioctl
    refine (h.told t).moved live _ (.inl (Function.update_self ..)) rfl rfl rfl fun past => ?_
    simpa [answeredAt, calledAt, setThread, Activity.answered] using past.ioctl rest reply
  | submit =>
    obtain ⟨⟨request, activity⟩, hsubmit, hbind⟩ := Option.bind_eq_some_iff.mp stepped
    obtain ⟨bridge, start, rfl⟩ := Option.map_eq_some_iff.mp hbind
    obtain ⟨⟨k, rest⟩, call, rfl⟩ := Activity.submit_cases hsubmit
    refine (h.told t).moved live _ (.inl (Function.update_self ..)) rfl rfl rfl fun past => ?_
    have request_eq : (bridge.calls s.called).request = request := by
      obtain ⟨_, rfl⟩ := Bridge.start_cases start
      simp
    simpa [answeredAt, calledAt] using (past.frame kept below).submit rest call request_eq
  | resume =>
    obtain ⟨activity, hresume, rfl⟩ := Option.map_eq_some_iff.mp stepped
    obtain ⟨request, k, c, result, rest, call, pc, rfl⟩ := Activity.resume_cases hresume
    refine (h.told t).moved live _ (.inl (Function.update_self ..)) rfl rfl rfl fun past => ?_
    simpa [answeredAt, calledAt, setThread, Activity.answered] using past.resume rest call pc
  | next =>
    unfold threadStep at stepped
    dsimp only at stepped
    split at stepped
    · next buf rest =>
      obtain rfl := Option.some.inj stepped
      refine (h.told t).moved live _ (.inl (Function.update_self ..)) rfl rfl rfl fun past => ?_
      simpa [answeredAt, calledAt, setThread] using past.next rest
    · obtain rfl := Option.some.inj stepped
      refine (h.told t).moved live thread (.inr (Function.update_self ..)) rfl rfl rfl ?_
      exact fun past => by simpa [answeredAt, calledAt] using past.frame kept below
    · cases stepped
  | spawn => cases stepped
  | join => cases stepped

theorem Told.step {log : SystemLog} {s s' : System} {a : Action} (h : Histories log s)
    (move : s.step a = some s') (t : ThreadId) : Told (log ++ [⟨s, a, (), s'⟩]) s' t := by
  have below := h.called t
  obtain ⟨kept, _⟩ := step_kept move
  cases a with
  | main m =>
    cases mainStep_cases move with
    | @spawn worker k rest =>
      by_cases new : t = s.spawned
      · subst new
        cases h.told s.spawned with
        | past spawned => exact absurd spawned (Nat.lt_irrefl _)
        | unspawned _ none history calls workers =>
          refine @Told.past _ _ _ (.enter worker worker.initial) (Nat.lt_succ_self _) ?_
            (.inl (Function.update_self ..)) ?_
          · simp only [System.history, callsOf, filterMap_snoc] at history calls ⊢
            rw [history, calls]
            exact .enter ..
          · simp only [workersOf, filterMap_snoc] at workers ⊢
            simp [workers, spawnedAt, rest, DataThread.enter]
      · refine (h.told t).other below kept (Function.update_of_ne new ..) ?_ rfl rfl ?_
        · exact ⟨fun later => Nat.lt_of_le_of_ne (Nat.le_of_lt_succ later) new, Nat.lt_succ_of_lt⟩
        · simp [spawnedAt, rest, Ne.symm new]
    | _ => exact (h.told t).other below kept rfl .rfl rfl rfl rfl
  | bridge b =>
    obtain ⟨bridge, rfl⟩ := bridge_cases move
    exact (h.told t).other below kept rfl .rfl rfl rfl rfl
  | unwind u =>
    obtain ⟨thread, live, unwound⟩ := Option.bind_eq_some_iff.mp move
    obtain rfl := unwind_eq unwound
    by_cases other : t = u
    · subst other
      refine (h.told t).moved live thread (.inr (Function.update_self ..)) rfl rfl rfl ?_
      exact fun past => by simpa [answeredAt, calledAt] using past.frame kept below
    · exact (h.told t).other below kept (Function.update_of_ne other ..) .rfl rfl rfl rfl
  | thread u m =>
    obtain ⟨thread, live, stepped⟩ := Option.bind_eq_some_iff.mp move
    by_cases other : t = u
    · subst other
      exact .thread h live move stepped
    · obtain ⟨spawned, threads⟩ := threadStep_others stepped other
      refine (h.told t).other below kept threads (by rw [spawned]) ?_ ?_ rfl
      · cases m <;> simp [answeredAt, Ne.symm other]
      · cases m <;> simp [calledAt, Ne.symm other]

/-- Only a step into `submit` gives out a call, which has no number yet. -/
theorem calledAt_eq {s s' : System} {a : Action} {t : ThreadId} {c : CallId}
    (move : s.step a = some s') (h : calledAt t ⟨s, a, (), s'⟩ = some c) :
    a = .thread t .submit ∧ c = s.called ∧ s.called < s'.called ∧
      (s'.bridge.calls c).seqnum = none := by
  unfold calledAt at h
  split at h
  · next u action =>
    dsimp only at action
    subst action
    split at h
    · next same =>
      subst same
      obtain rfl := Option.some.inj h
      obtain ⟨thread, live, stepped⟩ := Option.bind_eq_some_iff.mp move
      obtain ⟨⟨request, activity⟩, _, hbind⟩ := Option.bind_eq_some_iff.mp stepped
      obtain ⟨bridge, start, rfl⟩ := Option.map_eq_some_iff.mp hbind
      obtain ⟨_, rfl⟩ := Bridge.start_cases start
      exact ⟨rfl, rfl, Nat.lt_succ_self _, by simp [Call.idle]⟩
    · cases h
  · cases h

theorem mainCalledAt_eq {s s' : System} {a : Action} {c : CallId} (move : s.step a = some s')
    (h : mainCalledAt ⟨s, a, (), s'⟩ = some c) :
    a = .main .submit ∧ c = s.called ∧ s.called < s'.called := by
  unfold mainCalledAt at h
  split at h
  · next action =>
    dsimp only at action
    subst action
    obtain rfl := Option.some.inj h
    have submitted : s.mainStep .submit = some s' := move
    cases mainStep_cases submitted with
    | submit => exact ⟨rfl, rfl, Nat.lt_succ_self _⟩
  · cases h

theorem Histories.step {log : SystemLog} {s s' : System} {a : Action} (h : Histories log s)
    (move : s.step a = some s') : Histories (log ++ [⟨s, a, (), s'⟩]) s' := by
  have cases_of {t : ThreadId} {c : CallId} (mem : c ∈ callsOf t (log ++ [⟨s, a, (), s'⟩])) :
      c ∈ callsOf t log ∨ calledAt t ⟨s, a, (), s'⟩ = some c := by
    simpa only [callsOf, filterMap_snoc, List.mem_append, Option.mem_toList] using mem
  have main_cases {c : CallId} (mem : c ∈ mainCalls (log ++ [⟨s, a, (), s'⟩])) :
      c ∈ mainCalls log ∨ mainCalledAt ⟨s, a, (), s'⟩ = some c := by
    simpa only [mainCalls, filterMap_snoc, List.mem_append, Option.mem_toList] using mem
  refine ⟨Told.step h move, fun t c mem => ?_, fun c mem => ?_, fun t u c ht hu => ?_,
    fun t c mem main => ?_⟩
  · rcases cases_of mem with old | new
    · exact Nat.lt_of_lt_of_le (h.called t c old) (step_kept move).2
    · obtain ⟨_, rfl, later, _⟩ := calledAt_eq move new
      exact later
  · rcases main_cases mem with old | new
    · exact Nat.lt_of_lt_of_le (h.mainCalled c old) (step_kept move).2
    · obtain ⟨_, rfl, later⟩ := mainCalledAt_eq move new
      exact later
  · rcases cases_of ht with old | new <;> rcases cases_of hu with old' | new'
    · exact h.apart t u c old old'
    · obtain ⟨_, rfl, _⟩ := calledAt_eq move new'
      exact absurd (h.called t _ old) (Nat.lt_irrefl _)
    · obtain ⟨_, rfl, _⟩ := calledAt_eq move new
      exact absurd (h.called u _ old') (Nat.lt_irrefl _)
    · obtain ⟨rfl, _, _⟩ := calledAt_eq move new
      obtain ⟨same, _, _⟩ := calledAt_eq move new'
      exact (Action.thread.inj same).1
  · rcases cases_of mem with old | new <;> rcases main_cases main with old' | new'
    · exact h.mainApart t c old old'
    · obtain ⟨_, rfl, _⟩ := mainCalledAt_eq move new'
      exact absurd (h.called t _ old) (Nat.lt_irrefl _)
    · obtain ⟨_, rfl, _⟩ := calledAt_eq move new
      exact absurd (h.mainCalled _ old') (Nat.lt_irrefl _)
    · obtain ⟨rfl, _, _⟩ := calledAt_eq move new
      obtain ⟨same, _, _⟩ := mainCalledAt_eq move new'
      cases same

theorem Histories.initial (bridge : Bridge) : Histories [] (new bridge) where
  told t := .unspawned (Nat.zero_le t) rfl rfl rfl rfl
  called := by simp [callsOf]
  mainCalled := by simp [mainCalls]
  apart := by simp [callsOf]
  mainApart := by simp [callsOf]

theorem histories_of_run {bridge : Bridge} {log : SystemLog} {s : System}
    (run : Logged perform (new bridge) log s) : Histories log s := by
  refine run.invariant Histories (.initial bridge) fun log s a _ t ih hop => ?_
  obtain ⟨s', move, same⟩ := Option.map_eq_some_iff.mp hop
  cases same
  exact ih.step move

theorem Histories.spawned {log : SystemLog} {s : System} (h : Histories log s) {t : ThreadId}
    {w : Worker} (spawned : w ∈ workersOf t log) :
    ∃ thread : DataThread, thread.worker = w ∧
      Past s.bridge thread (history t log) (callsOf t log) := by
  cases h.told t with
  | unspawned _ _ _ _ workers =>
    rw [workers] at spawned
    cases spawned
  | @past thread _ past _ workers =>
    rw [workers] at spawned
    exact ⟨thread, (List.mem_singleton.mp spawned).symm, past⟩

theorem Histories.live {log : SystemLog} {s : System} (h : Histories log s) {t : ThreadId}
    {thread : DataThread} (live : s.threads t = some thread) :
    Past s.bridge thread (history t log) (callsOf t log) ∧ workersOf t log = [thread.worker] := by
  cases h.told t with
  | unspawned _ none => cases live.symm.trans none
  | past _ past last workers =>
    obtain rfl := Option.some.inj ((last.resolve_right (by simp [live])).symm.trans live)
    exact ⟨past, workers⟩

end System

end UsbipDevirt
