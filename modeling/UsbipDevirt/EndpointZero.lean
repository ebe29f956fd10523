import UsbipDevirt.EndpointData
import UsbipDevirt.Presented

/-!
# Endpoint 0 from the host to the server

A control request passes through the event loop, a call of `submit` and the
connection that all threads share, and its answer comes back through the reader
thread. What the main thread has done is read off the log of the run, as the
histories of the data threads are. If what the server answers to its commands
are the answers of a device, then the host sees that device as the bridge
presents it, whatever the other threads do.
-/

namespace UsbipDevirt

open Transition Program Program.Prog

/-! ## Calls and their answers -/

/-- Every call of `submit` in a clean trace returned a reply. -/
theorem answers_of_clean {es : Trace} (clean : Clean es) :
    ∀ a ∈ answers es, ∃ ret, a.2 = .ok ret := by
  intro a mem
  obtain ⟨⟨o, reply⟩, he, here⟩ := List.mem_filterMap.mp mem
  cases o with
  | submit request =>
    obtain rfl := Option.some.inj here
    cases reply with
    | error e => cases clean _ he
    | ok ret => exact ⟨ret, rfl⟩
  | ioctl | spawn | join => cases here

theorem clean_flatten {vars : LoopState} {ess : List Trace}
    (iterated : Iterates mainLoop ⟨none, []⟩ ess vars) : Clean ess.flatten := by
  intro e mem
  obtain ⟨es, hes, here⟩ := List.mem_flatten.mp mem
  exact iterates_clean iterated es hes e here

/-- The one call of `submit` that has failed returned no reply. -/
theorem transfers_eq_nil {es : Trace} (few : (answers es).length ≤ 1)
    (failed : ¬ ∀ a ∈ answers es, ∃ ret, a.2 = .ok ret) : transfers es = [] := by
  unfold transfers
  generalize answers es = as at few failed
  cases as with
  | nil => rfl
  | cons a as =>
    obtain rfl : as = [] :=
      List.length_eq_zero_iff.mp (Nat.le_zero.mp (Nat.le_of_succ_le_succ few))
    obtain ⟨request, result⟩ := a
    cases result with
    | error e => rfl
    | ok ret =>
      refine absurd (fun a mem => ?_) failed
      obtain rfl := List.mem_singleton.mp mem
      exact ⟨ret, rfl⟩

/-! ## One URB in each iteration -/

/-- The number of URBs that an operation submits. -/
def Op.urbs : Op → ℕ
  | .submit _ => 1
  | _ => 0

theorem NotSubmit.urbs {o : Op} (h : NotSubmit o) : o.urbs = 0 := by
  cases o with
  | submit request => exact absurd rfl (h request)
  | ioctl | spawn | join => rfl

theorem length_answers (es : Trace) : (answers es).length = (es.map fun e => e.op.urbs).sum := by
  induction es with
  | nil => rfl
  | cons e es ih =>
    obtain ⟨o, reply⟩ := e
    rw [List.map_cons, List.sum_cons, ← ih]
    cases o with
    | submit request => exact Nat.add_comm _ 1
    | ioctl | spawn | join => exact (Nat.zero_add _).symm

theorem costs_quiet {α : Type} {p : Routine α} (h : Uses NotSubmit p) : Costs Op.urbs p 0 :=
  Uses.costs (h.mono fun _ => NotSubmit.urbs)

theorem costs_once {α : Type} {request : UrbRequest}
    {k : Except IoError RetSubmit → Routine α} (quiet : ∀ reply, Uses NotSubmit (k reply)) :
    Costs Op.urbs (.op (.submit request) k : Routine α) 1 :=
  costs_op (n := 0) fun reply => costs_quiet (quiet reply)

/-- An iteration of the event loop submits at most one URB. -/
theorem costs_mainLoop_once (vars : LoopState) : Costs Op.urbs (mainLoop vars) 1 := by
  have fetched : Uses NotSubmit RawGadgetDevice.eventFetch :=
    (uses_rawIoctl (by simp [NotSubmit])).bind fun _ => (uses_ofResult _).bind fun _ => trivial
  refine Costs.bind (m := 0) (n := 1) (costs_quiet fetched) fun event => ?_
  have idle (h : Uses NotSubmit (handleEvent event vars)) :
      Costs Op.urbs (handleEvent event vars) 1 := (costs_quiet h).mono (Nat.zero_le 1)
  cases event with
  | control ctrl =>
    show Costs Op.urbs (handleControl ctrl vars) 1
    cases h : dispatch ctrl with
    | setAddress =>
      rw [handleControl_of_setAddress h]
      refine (costs_quiet ?_).mono (Nat.zero_le 1)
      exact (uses_ep0Read (by simp [NotSubmit]) []).bind fun _ => trivial
    | controlIn | setConfiguration | controlOutNoData =>
      have direct : dispatch ctrl = .controlIn ∨ dispatch ctrl = .setConfiguration ∨
          dispatch ctrl = .controlOutNoData := by simp [h]
      obtain ⟨rest, submits, quiet⟩ := handleControl_submit vars direct
      rw [submits]
      exact costs_once quiet
    | controlOutWithData =>
      obtain ⟨rest, submits, quiet⟩ := handleControl_outWithData vars h
      rw [submits]
      have reads := uses_ep0Read (P := NotSubmit) (by simp [NotSubmit])
        (List.replicate ctrl.wLength.toNat 0)
      exact Costs.bind (m := 0) (n := 1) (costs_quiet reads) fun _ => costs_once quiet
  | disconnect | reset =>
    exact idle ((uses_joinAll (by simp [NotSubmit]) _).bind fun _ => trivial)
  | connect | suspend | resume | unknown => exact idle trivial

namespace System

/-! ## What the main thread has done -/

/-- The operation that a step completes for the main thread. -/
def mainAnsweredAt (e : Entry System Action Unit) : Option (Program.Event Reply) :=
  match e.action with
  | .main (.ioctl _) | .main .resume | .main .spawn | .main .join => e.after.main.trace.getLast?
  | _ => none

def mainHistory (log : SystemLog) : Trace := log.filterMap mainAnsweredAt

/-- The calls of a thread have returned what its history says, all but the one it is in. -/
structure Calling {σ α : Type} (b : Bridge) (a : Activity σ α) (es : Trace) (cs : List CallId) :
    Prop where
  calls : ∃ done, cs = done ++ a.call.toList ∧
    done.map (fun c => (b.calls c).outcome) = (answers es).map some
  current : ∀ c, a.call = some c → ∃ k, a.rest = .op (.submit (b.calls c).request) k

namespace Calling

variable {σ α : Type} {b b' : Bridge} {a : Activity σ α} {es : Trace} {cs : List CallId}

theorem enter (b : Bridge) (vars : σ) (body : Routine α) :
    Calling b (.enter vars body) [] [] where
  calls := ⟨[], rfl, rfl⟩
  current := by rintro _ ⟨⟩

theorem frame {n : CallId} (h : Calling b a es cs) (kept : CallsKept b b' n)
    (below : ∀ c ∈ cs, c < n) : Calling b' a es cs := by
  obtain ⟨done, rfl, outcomes⟩ := h.calls
  refine ⟨⟨done, rfl, ?_⟩, fun c call => ?_⟩
  · rw [← outcomes]
    refine List.map_congr_left fun c mem => ?_
    obtain ⟨⟨request, result⟩, _, same⟩ := outcome_of_mem outcomes mem
    obtain ⟨hrequest, hresult⟩ := Call.outcome_eq_some.mp same
    obtain ⟨request', result'⟩ := kept c (below c (List.mem_append_left _ mem))
    rw [same, Call.outcome_eq_some]
    exact ⟨request'.trans hrequest, result' result hresult⟩
  · obtain ⟨k, rest⟩ := h.current c call
    have below : c < n := below c (by simp [call])
    exact ⟨k, (kept c below).1 ▸ rest⟩

theorem idle (h : Calling b a es cs)
    (elsewhere : ∀ request k, a.rest ≠ .op (.submit request) k) : a.call = none := by
  rw [Option.eq_none_iff_forall_ne_some]
  intro c call
  obtain ⟨k, here⟩ := h.current c call
  exact elsewhere _ k here

/-- An operation other than `submit` is answered. -/
theorem answered {o : Op} {k : Reply o → Routine α} (h : Calling b a es cs)
    (rest : a.rest = .op o k) (quiet : NotSubmit o) (reply : Reply o) :
    Calling b (a.answered ⟨o, reply⟩ (k reply)) (es ++ [⟨o, reply⟩]) cs := by
  have idle : a.call = none := by
    apply h.idle
    rintro request k' here
    cases rest.symm.trans here
    exact quiet _ rfl
  have silent : answers [⟨o, reply⟩] = [] := by
    cases o with
    | submit request => exact absurd rfl (quiet request)
    | ioctl | spawn | join => rfl
  obtain ⟨done, rfl, outcomes⟩ := h.calls
  refine ⟨⟨done, by simp [idle, Activity.answered], ?_⟩, by rintro _ ⟨⟩⟩
  rw [answers_append, silent, List.append_nil, outcomes]

theorem submit {request : UrbRequest} {k : Except IoError RetSubmit → Routine α} {c : CallId}
    (h : Calling b a es cs) (rest : a.rest = .op (.submit request) k) (idle : a.call = none)
    (same : (b.calls c).request = request) :
    Calling b { a with call := some c } es (cs ++ [c]) := by
  obtain ⟨done, rfl, outcomes⟩ := h.calls
  refine ⟨⟨done, by simp [idle], outcomes⟩, ?_⟩
  rintro _ ⟨⟩
  exact ⟨k, same ▸ rest⟩

theorem resume {request : UrbRequest} {k : Except IoError RetSubmit → Routine α} {c : CallId}
    {result : Except IoError RetSubmit} (h : Calling b a es cs)
    (rest : a.rest = .op (.submit request) k) (call : a.call = some c)
    (pc : (b.calls c).pc = .returned result) :
    Calling b (a.answered ⟨.submit request, result⟩ (k result))
      (es ++ [⟨.submit request, result⟩]) cs := by
  obtain ⟨_, here⟩ := h.current c call
  cases rest.symm.trans here
  have outcome : (b.calls c).outcome = some ((b.calls c).request, result) :=
    Call.outcome_eq_some.mpr ⟨rfl, pc⟩
  obtain ⟨done, rfl, outcomes⟩ := h.calls
  refine ⟨⟨done ++ [c], by simp [call, Activity.answered], ?_⟩, by rintro _ ⟨⟩⟩
  simp only [List.map_append, outcomes, answers_append, answers_cons_submit, answers_nil,
    List.map_cons, List.map_nil, outcome]

/-- At the end of an iteration the thread goes on to the next. -/
theorem next {result : Except IoError α} (h : Calling b a es cs) (rest : a.rest = .done result)
    (vars : σ) (body : Routine α) : Calling b (.enter vars body) es cs := by
  have idle := h.idle (by simp [rest])
  obtain ⟨done, rfl, outcomes⟩ := h.calls
  exact ⟨⟨done, by simp [idle, Activity.enter], outcomes⟩, by rintro _ ⟨⟩⟩

/-- All calls but the last have returned. -/
theorem returned (h : Calling b a es cs) : ∃ done last, cs = done ++ Option.toList last ∧
    ∀ c ∈ done, ∃ result, (b.calls c).pc = .returned result := by
  obtain ⟨done, calls, outcomes⟩ := h.calls
  refine ⟨done, a.call, calls, fun c mem => ?_⟩
  obtain ⟨⟨request, result⟩, _, outcome⟩ := outcome_of_mem outcomes mem
  exact ⟨result, (Call.outcome_eq_some.mp outcome).2⟩

end Calling

/-- The history of the main thread and its calls agree with where it stands. -/
structure MainPast (log : SystemLog) (s : System) : Prop where
  standing : ∃ ess, Iterates mainLoop ⟨none, []⟩ ess s.main.vars ∧
    After (mainLoop s.main.vars) s.main.trace s.main.rest ∧
    mainHistory log = ess.flatten ++ s.main.trace
  calling : Calling s.bridge s.main (mainHistory log) (mainCalls log)

namespace MainPast

variable {log : SystemLog} {s s' : System} {a : Action} {e : Entry System Action Unit}

theorem initial (bridge : Bridge) : MainPast [] (new bridge) where
  standing := ⟨[], .start, .nil, rfl⟩
  calling := .enter ..

/-- One more entry of the log, which tells of these operations and calls. -/
theorem snoc {x : Trace} {y : List CallId} (told : (mainAnsweredAt e).toList = x)
    (begun : (mainCalledAt e).toList = y)
    (standing : ∃ ess, Iterates mainLoop ⟨none, []⟩ ess s'.main.vars ∧
      After (mainLoop s'.main.vars) s'.main.trace s'.main.rest ∧
      mainHistory log ++ x = ess.flatten ++ s'.main.trace)
    (calling : Calling s'.bridge s'.main (mainHistory log ++ x) (mainCalls log ++ y)) :
    MainPast (log ++ [e]) s' := by
  have history : mainHistory (log ++ [e]) = mainHistory log ++ x := told ▸ filterMap_snoc ..
  have calls : mainCalls (log ++ [e]) = mainCalls log ++ y := begun ▸ filterMap_snoc ..
  constructor
  · rwa [history]
  · rwa [history, calls]

/-- A step of another thread or of the server. -/
theorem other (h : MainPast log s) (below : ∀ c ∈ mainCalls log, c < s.called)
    (kept : CallsKept s.bridge s'.bridge s.called) (same : s'.main = s.main)
    (silent : mainAnsweredAt e = none) (elsewhere : mainCalledAt e = none) :
    MainPast (log ++ [e]) s' := by
  refine snoc (x := []) (y := []) (by rw [silent]; rfl) (by rw [elsewhere]; rfl) ?_ ?_
  · simpa only [List.append_nil, same] using h.standing
  · simpa only [List.append_nil, same] using h.calling.frame kept below

/-- An operation is answered. -/
theorem standing_answered {e : Program.Event Reply} {k : Reply e.op → Routine LoopState}
    (h : MainPast log s) (rest : s.main.rest = .op e.op k) : ∃ ess,
      Iterates mainLoop ⟨none, []⟩ ess s.main.vars ∧
      After (mainLoop s.main.vars) (s.main.trace ++ [e]) (k e.reply) ∧
      mainHistory log ++ [e] = ess.flatten ++ (s.main.trace ++ [e]) := by
  obtain ⟨ess, iterated, after, same⟩ := h.standing
  rw [rest] at after
  exact ⟨ess, iterated, after.snoc, by rw [same, List.append_assoc]⟩

theorem answered {o : Op} {k : Reply o → Routine LoopState} (h : MainPast log s)
    (rest : s.main.rest = .op o k) (quiet : NotSubmit o) (reply : Reply o)
    (bridge : s'.bridge = s.bridge) (main : s'.main = s.main.answered ⟨o, reply⟩ (k reply))
    (told : mainAnsweredAt e = some ⟨o, reply⟩) (elsewhere : mainCalledAt e = none) :
    MainPast (log ++ [e]) s' := by
  refine snoc (x := [⟨o, reply⟩]) (y := []) (by rw [told]; rfl) (by rw [elsewhere]; rfl) ?_ ?_
  · rw [main]
    exact h.standing_answered (e := ⟨o, reply⟩) rest
  · rw [main, bridge, List.append_nil]
    exact h.calling.answered rest quiet reply

theorem step (h : MainPast log s) (below : ∀ c ∈ mainCalls log, c < s.called)
    (move : s.step a = some s') : MainPast (log ++ [⟨s, a, (), s'⟩]) s' := by
  obtain ⟨kept, _⟩ := step_kept move
  cases a with
  | main m =>
    cases mainStep_cases move with
    | @ioctl call k reply rest =>
      exact h.answered rest (by simp [NotSubmit]) reply rfl rfl
        (by simp [mainAnsweredAt, Activity.answered]) rfl
    | @spawn worker k rest =>
      exact h.answered rest (by simp [NotSubmit]) s.spawned rfl rfl
        (by simp [mainAnsweredAt, Activity.answered]) rfl
    | @join t k rest =>
      exact h.answered rest (by simp [NotSubmit]) () rfl rfl
        (by simp [mainAnsweredAt, Activity.answered]) rfl
    | @submit request k bridge rest call start =>
      have request_eq : (bridge.calls s.called).request = request := by
        obtain ⟨_, rfl⟩ := Bridge.start_cases start
        simp
      refine snoc (x := []) (y := [s.called]) rfl rfl ?_ ?_
      · simpa only [List.append_nil] using h.standing
      · simpa only [List.append_nil] using
          (h.calling.frame kept below).submit rest call request_eq
    | @resume request k c result rest call pc =>
      refine snoc (x := [⟨.submit request, result⟩]) (y := [])
        (by simp [mainAnsweredAt, Activity.answered]) rfl ?_ ?_
      · exact h.standing_answered (e := ⟨.submit request, result⟩) rest
      · simpa only [List.append_nil] using h.calling.resume rest call pc
    | @next vars rest =>
      obtain ⟨ess, iterated, after, same⟩ := h.standing
      rw [rest] at after
      refine snoc (x := []) (y := []) rfl rfl ⟨_, iterated.next after, .nil, ?_⟩ ?_
      · simpa [Activity.enter] using same
      · simpa only [List.append_nil] using h.calling.next rest vars (mainLoop vars)
  | thread t m =>
    obtain ⟨thread, live, stepped⟩ := Option.bind_eq_some_iff.mp move
    have same : s'.main = s.main := by cases threadStep_cases stepped <;> rfl
    exact h.other below kept same rfl rfl
  | unwind t =>
    obtain ⟨thread, live, unwound⟩ := Option.bind_eq_some_iff.mp move
    obtain rfl := unwind_eq unwound
    exact h.other below kept rfl rfl rfl
  | bridge b =>
    obtain ⟨bridge, rfl⟩ := bridge_cases move
    exact h.other below kept rfl rfl rfl

end MainPast

/-- A call that the main thread has begun in a step has no number yet. -/
theorem numbers_mainCalledAt {s s' : System} {a : Action} (move : s.step a = some s') :
    s'.bridge.numbers (mainCalledAt ⟨s, a, (), s'⟩).toList = [] := by
  cases begun : mainCalledAt ⟨s, a, (), s'⟩ with
  | none => rfl
  | some c =>
    obtain ⟨rfl, rfl, _⟩ := mainCalledAt_eq move begun
    have submitted : s.mainStep .submit = some s' := move
    cases mainStep_cases submitted with
    | submit rest call start =>
      obtain ⟨_, rfl⟩ := Bridge.start_cases start
      simp [Bridge.numbers, Call.idle]

section Runs

variable {build : Build} {input : Input} {output : Output} {busnum devnum : UInt32}
  {log : SystemLog} {s : System}

theorem mainPast_of_run {bridge : Bridge} (run : Logged perform (new bridge) log s) :
    MainPast log s := by
  induction run with
  | start => exact .initial bridge
  | next earlier hop ih =>
    obtain ⟨_, move, same⟩ := Option.map_eq_some_iff.mp hop
    cases same
    exact ih.step (histories_of_run earlier).mainCalled move

/-- The calls of the main thread have got growing numbers. -/
theorem mainCalls_ordered (run : Logged perform (imported build input output busnum devnum) log s)
    (bound : s.bridge.split.issued.length < 2 ^ 32 - 1) :
    (s.bridge.numbers (mainCalls log)).Pairwise (· < ·) := by
  induction run with
  | start => simp [mainCalls, Bridge.numbers]
  | @next log s s' a o earlier hop ih =>
    obtain ⟨_, move, same⟩ := Option.map_eq_some_iff.mp hop
    cases same
    have grown := step_issued_le move
    have before := ih (by omega)
    have calls : mainCalls (log ++ [⟨s, a, (), s'⟩]) =
        mainCalls log ++ (mainCalledAt ⟨s, a, (), s'⟩).toList := filterMap_snoc ..
    rw [calls, Bridge.numbers_append, numbers_mainCalledAt move, List.append_nil]
    rcases step_bridge move with same | ⟨_, hop⟩
    · rwa [same]
    · obtain ⟨done, last, calls, returned⟩ := (mainPast_of_run earlier).calling.returned
      rw [calls] at before ⊢
      exact Bridge.numbers_step (sound_of_run earlier (by omega)).inv hop (by omega) returned before

/-! ## The server as a device -/

/-- The CMD_SUBMITs on the wire under the numbers of the main thread's calls. -/
def mainCommands (log : SystemLog) (s : System) : List (UInt32 × Command) :=
  s.bridge.split.written.filter fun p => p.1 ∈ s.bridge.numbers (mainCalls log)

/-- A CMD_SUBMIT on the wire and the answer to it, if there is one. -/
def answeredTransfer (b : Bridge) (p : UInt32 × Command) : Option Transfer :=
  match p.2 with
  | .submit args => (replyTo b p.1).map args.transfer
  | .unlink _ => none

/-- The control requests that the server has answered, in the order of its commands. -/
def exchanged (log : SystemLog) (s : System) : List Transfer :=
  (mainCommands log s).filterMap (answeredTransfer s.bridge)

/-- What has been exchanged with the server for these calls. -/
def exchangedBy (b : Bridge) (cs : List CallId) : List Transfer :=
  ((cs.filterMap (entry b)).filter fun p => b.split.written.contains p).filterMap
    (answeredTransfer b)

theorem exchangedBy_append (b : Bridge) (cs ds : List CallId) :
    exchangedBy b (cs ++ ds) = exchangedBy b cs ++ exchangedBy b ds := by
  simp only [exchangedBy, List.filterMap_append, List.filter_append]

theorem length_exchangedBy_le (b : Bridge) (cs : List CallId) :
    (exchangedBy b cs).length ≤ cs.length := calc
  (exchangedBy b cs).length
    ≤ ((cs.filterMap (entry b)).filter fun p => b.split.written.contains p).length :=
        List.length_filterMap_le ..
  _ ≤ (cs.filterMap (entry b)).length := List.length_filter_le ..
  _ ≤ cs.length := List.length_filterMap_le ..

/-- The calls that have returned `Ok` have been answered with what they returned. -/
theorem Sound.exchangedBy_ok (h : Sound log s) {cs : List CallId}
    {as : List (UrbRequest × Except IoError RetSubmit)}
    (outcomes : cs.map (fun c => (s.bridge.calls c).outcome) = as.map some)
    (ok : ∀ a ∈ as, ∃ ret, a.2 = .ok ret) :
    exchangedBy s.bridge cs = as.filterMap returnedTransfer := by
  induction cs generalizing as with
  | nil =>
    obtain rfl : as = [] := by simpa using outcomes.symm
    rfl
  | cons c cs ih =>
    cases as with
    | nil => cases outcomes
    | cons a as =>
      obtain ⟨head, tail⟩ := List.cons.inj outcomes
      obtain ⟨⟨ret, result⟩, later⟩ := List.forall_mem_cons.mp ok
      obtain ⟨request, _⟩ := a
      obtain rfl : _ = Except.ok ret := result
      obtain ⟨rfl, pc⟩ := Call.outcome_eq_some.mp head
      obtain ⟨entered, written, found⟩ := h.returned_ok pc
      have first : exchangedBy s.bridge [c] = [(s.bridge.calls c).request.args.transfer ret] := by
        simp [exchangedBy, entered, written, answeredTransfer, found]
      have here : returnedTransfer ((s.bridge.calls c).request, .ok ret) =
          some ((s.bridge.calls c).request.args.transfer ret) := rfl
      rw [show c :: cs = [c] ++ cs from rfl, exchangedBy_append, first, ih tail later,
        List.filterMap_cons_some here, List.singleton_append]

/-- All calls of the main thread have been answered with what they returned, but for
one at most: the one it is in, or one that has failed. -/
theorem exchanged_eq (run : Logged perform (imported build input output busnum devnum) log s)
    (bound : s.bridge.split.issued.length < 2 ^ 32 - 1) : ∃ ess pending,
      Iterates mainLoop ⟨none, []⟩ ess s.main.vars ∧
      After (mainLoop s.main.vars) s.main.trace s.main.rest ∧
      mainHistory log = ess.flatten ++ s.main.trace ∧
      exchanged log s = transfers (mainHistory log) ++ pending ∧
      (transfers s.main.trace ++ pending).length ≤ 1 := by
  have sound := sound_of_run run bound
  have past := mainPast_of_run run
  obtain ⟨ess, iterated, after, history⟩ := past.standing
  obtain ⟨done, calls, outcomes⟩ := past.calling.calls
  rw [history, answers_append, List.map_append] at outcomes
  obtain ⟨oks, last, rfl, earlier, current⟩ := List.map_eq_append_iff.mp outcomes
  have ok := answers_of_clean (clean_flatten iterated)
  have commands : exchanged log s =
      exchangedBy s.bridge oks ++ exchangedBy s.bridge (last ++ s.main.call.toList) := by
    rw [exchanged, mainCommands, sound.commands_of_calls bound (mainCalls_ordered run bound),
      calls, List.append_assoc, ← exchangedBy_append, exchangedBy]
    simp only [List.contains_eq_mem]
  have first : exchangedBy s.bridge oks = transfers ess.flatten :=
    sound.exchangedBy_ok earlier ok
  have few : (last ++ s.main.call.toList).length ≤ 1 := by
    obtain ⟨m, left, paid⟩ := (costs_mainLoop_once _).paid after
    rw [← length_answers] at paid
    have asked := congrArg List.length current
    simp only [List.length_map] at asked
    rw [List.length_append]
    cases call : s.main.call with
    | none =>
      simp only [Option.toList_none, List.length_nil]
      omega
    | some c =>
      obtain ⟨k, here⟩ := past.calling.current c call
      rw [here] at left
      have one : 1 ≤ m := left.1
      simp only [Option.toList_some, List.length_singleton]
      omega
  have bounded := Nat.le_trans (length_exchangedBy_le s.bridge (last ++ s.main.call.toList)) few
  rw [history, transfers_append]
  by_cases replied : ∀ a ∈ answers s.main.trace, ∃ ret, a.2 = .ok ret
  · have now : exchangedBy s.bridge last = transfers s.main.trace :=
      sound.exchangedBy_ok current replied
    rw [exchangedBy_append, now] at bounded commands
    refine ⟨ess, exchangedBy s.bridge s.main.call.toList, iterated, after, rfl, ?_, bounded⟩
    rw [commands, first, List.append_assoc]
  · have none : transfers s.main.trace = [] := by
      refine transfers_eq_nil ?_ replied
      have asked := congrArg List.length current
      simp only [List.length_map] at asked
      rw [List.length_append] at few
      omega
    refine ⟨ess, exchangedBy s.bridge (last ++ s.main.call.toList), iterated, after, rfl, ?_, ?_⟩
    · rw [none, List.append_nil, ← first]
      exact commands
    · rw [none]
      exact bounded

/-- In every run of the whole program below the limit of the counter, with any other
threads and any interleaving, and for any requests of the host that the bridge can
treat properly: if what the server has answered to the commands of the main thread
are the answers of a device, then the host has seen the presented device, with one
outcome for each request of an earlier iteration, in order. Of what has been answered
one thing at most was not yet shown to the host, or is lost if the event loop has
ended with an error: the answer to the current request. -/
theorem host_sees_device (run : Logged perform (imported build input output busnum devnum) log s)
    (bound : s.bridge.split.issued.length < 2 ^ 32 - 1) {host : Host}
    (view : HostRun ⟨[], []⟩ (mainHistory log) host) (regular : ∀ h ∈ host.requests, h.Regular)
    {σ : Type} {D : Device σ} {d d' : σ} (answers : D.Shows d (exchanged log s) d') :
    ∃ ess before t t' pending, Iterates mainLoop ⟨none, []⟩ ess s.main.vars ∧
      mainHistory log = ess.flatten ++ s.main.trace ∧ HostRun ⟨[], []⟩ ess.flatten before ∧
      D.Shows d (transfers ess.flatten) t ∧
      Presents D d t before host s.main.trace s.main.rest ∧
      exchanged log s = transfers (mainHistory log) ++ pending ∧
      D.Shows t (transfers s.main.trace) t' ∧ D.Shows t' pending d' ∧
      (transfers s.main.trace ++ pending).length ≤ 1 := by
  obtain ⟨ess, pending, iterated, after, history, exchanges, few⟩ := exchanged_eq run bound
  rw [exchanges] at answers
  obtain ⟨t', returned, last⟩ := answers.split
  rw [history] at view returned
  obtain ⟨before, t, first, earlier, presents, now⟩ :=
    presents_of_history iterated after view regular returned
  exact ⟨ess, before, t, t', pending, iterated, history, first, earlier, presents, exchanges, now,
    last, few⟩

end Runs

/-- The host assigns an address. -/
def addressed : List Action :=
  [.main (.ioctl (fetchedControl setAddress.ctrl)), .main (.ioctl done), .main .next]

/-- It switches the light on. -/
def lightOn (c : CallId) (seqnum : UInt32) : List Action :=
  [.main (.ioctl (fetchedControl lightReport.ctrl)), .main (.ioctl ⟨1, 0, [2]⟩)] ++
    exchange c seqnum [] ++ [.main .next]

/-- The host sets up the keyboard, switches the light on and asks for the descriptor
again, while the keyboard has nothing to report. -/
def lit : List Action :=
  addressed ++ readConfig 0 1 configDescriptor ++ configured 1 2 ++ [.thread 0 .submit] ++
    runCall 2 ++ lightOn 3 4 ++
    [.main (.ioctl (fetchedControl (getConfigDescriptor 9))), .main .submit] ++ runCall 4

def isLit (log : SystemLog) (s : System) : Bool :=
  decide (s.bridge.split.issued.length < 2 ^ 32 - 1 ∧ s.main.call = some 4 ∧
    transfers s.main.trace = [] ∧ exchanged log s = transfers (mainHistory log) ∧
    transfers (mainHistory log) = [readDescriptor.ends (.data configDescriptor),
      selectConfiguration.ends .acknowledged, lightReport.ends .acknowledged]) &&
  (hostView [setAddress, readDescriptor, selectConfiguration, lightReport, readHeader] ⟨[], []⟩
    (mainHistory log)).any fun host : Host => decide (host.requests.length = 5 ∧
      host.seen.length = 4 ∧ ∀ h ∈ host.requests, h.Regular)

/-- Four requests have come to an end, and the last one is on its way to the server. -/
theorem host_sees_device_keyboard : ∃ (s : System) (before host : Host),
    host.requests.length = 5 ∧ host.seen.length = 4 ∧ s.main.call = some 4 ∧
      Presents keyboard [] [2] before host s.main.trace s.main.rest := by
  obtain ⟨log, s, run, found⟩ :=
    Logged.of_record_any perform device lit isLit (by decide +kernel)
  simp only [isLit, Bool.and_eq_true, decide_eq_true_eq, Option.any_eq_true] at found
  obtain ⟨⟨bound, call, quiet, all, answered⟩, host, view, five, four, regular⟩ := found
  have answers : keyboard.Shows [] (exchanged log s) [2] := by
    have asked : keyboard.Shows [] [readDescriptor.ends (.data configDescriptor),
        selectConfiguration.ends .acknowledged] [] :=
      .cons (And.intro rfl rfl) (.cons (And.intro rfl rfl) .nil)
    have told : keyboard.Shows [] [lightReport.ends .acknowledged] [2] :=
      .cons (And.intro rfl rfl) .nil
    rw [all, answered]
    exact asked.append told
  obtain ⟨ess, before, t, t', pending, _, _, _, _, presents, split, now, last, _⟩ :=
    host_sees_device run bound (hostRun_of_view view) regular answers
  have none : pending = [] := by
    rw [all] at split
    exact List.append_right_eq_self.mp split.symm
  rw [none] at last
  rw [quiet] at now
  obtain rfl := Device.shows_nil.mp last
  obtain rfl := Device.shows_nil.mp now
  exact ⟨s, before, host, five, four, call, presents⟩

end System

end UsbipDevirt
