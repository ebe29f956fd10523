import Mathlib.Data.List.Forall2
import UsbipDevirt.Conversation
import UsbipDevirt.EndpointZero
import UsbipDevirt.GadgetProtocol
import UsbipDevirt.InFlight

/-!
# What is asked of the server

All threads write to one stream. Every command there is that of a call that one
of them has made: of the main thread, which passes on control requests of the
host, each once at most and in their order, or of a data thread, which asks for
transfers of one packet on its own endpoint. So nothing is asked that nobody
stands behind.
-/

namespace UsbipDevirt

open Transition Program Program.Prog RawGadgetDevice

section Sublists

variable {α β : Type} {R : α → β → Prop} {as as' : List α} {bs bs' : List β}

theorem sublistForall₂_prepend (h : List.SublistForall₂ R as bs) (more : List β) :
    List.SublistForall₂ R as (more ++ bs) := by
  induction more with
  | nil => exact h
  | cons b more ih => exact .cons_right ih

theorem sublistForall₂_singleton {a : α} {b : β} (related : R a b) (mem : b ∈ bs) :
    List.SublistForall₂ R [a] bs :=
  List.sublistForall₂_iff.mpr ⟨[b], .cons related .nil, List.singleton_sublist.mpr mem⟩

theorem sublistForall₂_append (h : List.SublistForall₂ R as bs)
    (h' : List.SublistForall₂ R as' bs') : List.SublistForall₂ R (as ++ as') (bs ++ bs') := by
  induction h with
  | nil => exact sublistForall₂_prepend h' _
  | cons related _ ih => exact .cons related ih
  | cons_right _ ih => exact .cons_right ih

theorem sublistForall₂_of_sublist (h : List.SublistForall₂ R as bs) (sub : as'.Sublist as) :
    List.SublistForall₂ R as' bs := by
  induction h generalizing as' with
  | nil =>
    obtain rfl := List.sublist_nil.mp sub
    exact .nil
  | cons related _ ih =>
    cases sub with
    | cons _ sub => exact .cons_right (ih sub)
    | cons_cons _ sub => exact .cons related (ih sub)
  | cons_right _ ih => exact .cons_right (ih sub)

theorem sublistForall₂_filterMap {γ : Type} {Q : γ → β → Prop} {f : α → Option γ}
    (h : List.SublistForall₂ R as bs) (follows : ∀ a b c, R a b → f a = some c → Q c b) :
    List.SublistForall₂ Q (as.filterMap f) bs := by
  induction h with
  | nil => exact .nil
  | @cons a b as bs related _ ih =>
    cases found : f a with
    | none =>
      rw [List.filterMap_cons_none found]
      exact .cons_right ih
    | some c =>
      rw [List.filterMap_cons_some found]
      exact .cons (follows a b c related found) ih
  | cons_right _ ih => exact .cons_right ih

end Sublists

/-! ## The requests of the host -/

/-- The control requests that were fetched in a trace. -/
def hostRequests (es : Trace) : List UsbCtrlRequest :=
  es.filterMap fun e => (eventOf [e]).bind Gadget.requestOf

/-- The URB stands for the control request, with no more data than that has. -/
def StandsFor (ctrl : UsbCtrlRequest) (request : UrbRequest) : Prop :=
  ∃ data, request = controlRequest ctrl (if ctrl.IsIn then .in else .out) data
      ctrl.wLength.toUInt32 ∧
    data.length ≤ ctrl.wLength.toNat ∧ (ctrl.IsIn → data = [])

/-- All that is submitted in the handling of an event stands for its request. -/
def AsksFor (event : Event) (o : Op) : Prop :=
  ∀ request, o = .submit request → ∃ ctrl, event = .control ctrl ∧ StandsFor ctrl request

theorem NotSubmit.asksFor {event : Event} {o : Op} (quiet : NotSubmit o) : AsksFor event o :=
  fun request same => absurd same (quiet request)

theorem standsFor_noData {ctrl : UsbCtrlRequest} (out : ¬ ctrl.IsIn)
    (empty : ctrl.wLength.toNat = 0) : StandsFor ctrl (controlRequest ctrl .out [] 0) := by
  have none : ctrl.wLength = 0 := UInt16.toNat_inj.mp empty
  refine ⟨[], ?_, Nat.zero_le _, fun _ => rfl⟩
  rw [if_neg out, none]
  rfl

/-- `ep0_read` returns no more than there is room for. -/
theorem returns_ep0Read (buf : List UInt8) :
    Returns (fun read : ℕ × List UInt8 => (read.2.take read.1).length ≤ buf.length)
      (ep0Read buf) := by
  simp only [ep0Read, rawIoctl_bind]
  intro reply
  dsimp only
  split
  · trivial
  · have room : ep0ReadLen buf.length ≤ ep0BufSize := Nat.min_le_right ..
    show (List.take _ _).length ≤ _
    rw [length_take_copyRead room]
    exact Nat.le_trans (copyRead_fst_le ..) (Nat.min_le_left ..)

theorem uses_asksFor_control (ctrl : UsbCtrlRequest) (vars : LoopState) :
    Uses (AsksFor (.control ctrl)) (handleControl ctrl vars) := by
  cases h : dispatch ctrl with
  | setAddress =>
    rw [handleControl_of_setAddress h]
    exact (uses_ep0Read (by simp [AsksFor]) []).bind fun _ => trivial
  | controlIn | setConfiguration | controlOutNoData =>
    have direct : dispatch ctrl = .controlIn ∨ dispatch ctrl = .setConfiguration ∨
        dispatch ctrl = .controlOutNoData := by simp [h]
    obtain ⟨rest, submits, quiet⟩ := handleControl_submit vars direct
    rw [submits]
    refine ⟨?_, fun reply => (quiet reply).mono fun _ => NotSubmit.asksFor⟩
    intro request same
    obtain rfl := Op.submit.inj same
    refine ⟨ctrl, rfl, ?_⟩
    by_cases isIn : ctrl.IsIn
    · rw [if_pos isIn]
      exact ⟨[], by rw [if_pos isIn], Nat.zero_le _, fun _ => rfl⟩
    · rw [if_neg isIn]
      apply standsFor_noData isIn
      rcases direct with h | h
      · exact absurd (isIn_of_dispatch h) isIn
      · exact noData_of_dispatch h
  | controlOutWithData =>
    obtain ⟨rest, submits, quiet⟩ := handleControl_outWithData vars h
    have out := isOut_of_dispatch (.inr (.inl h))
    rw [submits]
    refine (uses_ep0Read (by simp [AsksFor]) _).seq (returns_ep0Read _) fun read fits => ?_
    refine ⟨?_, fun reply => (quiet reply).mono fun _ => NotSubmit.asksFor⟩
    intro request same
    obtain rfl := Op.submit.inj same
    rw [List.length_replicate] at fits
    exact ⟨ctrl, rfl, _, by rw [if_neg out], fits, fun isIn => absurd isIn out⟩

theorem uses_asksFor (event : Event) (vars : LoopState) :
    Uses (AsksFor event) (handleEvent event vars) := by
  cases event with
  | control ctrl => exact uses_asksFor_control ctrl vars
  | disconnect | reset =>
    exact (uses_joinAll (by simp [AsksFor]) vars.epThreads).bind fun _ => trivial
  | connect | suspend | resume | unknown => trivial

/-! ## The iterations of the event loop -/

theorem mem_answers {es : Trace} {a : UrbRequest × Except IoError RetSubmit}
    (mem : a ∈ answers es) : ∃ e ∈ es, e.op = .submit a.1 := by
  obtain ⟨⟨o, reply⟩, he, here⟩ := List.mem_filterMap.mp mem
  refine ⟨_, he, ?_⟩
  cases o with
  | submit request =>
    obtain rfl := Option.some.inj here
    rfl
  | ioctl | spawn | join => cases here

section Iteration

variable {vars : LoopState} {es : Trace} {rest : Routine LoopState} {now : List UrbRequest}

/-- What has been submitted in an iteration, or is about to be, stands for the request
that was fetched. -/
theorem asked_of_fetched (run : After (mainLoop vars) es rest)
    (next : ∀ request ∈ now, ∃ k, rest = .op (.submit request) k) {request : UrbRequest}
    (asked : request ∈ (answers es).map Prod.fst ++ now) :
    ∃ ctrl ∈ hostRequests es, StandsFor ctrl request := by
  have submitted : (∃ e ∈ es, e.op = .submit request) ∨ ∃ k, rest = .op (.submit request) k := by
    rcases List.mem_append.mp asked with mem | mem
    · obtain ⟨a, ha, rfl⟩ := List.mem_map.mp mem
      exact .inl (mem_answers ha)
    · exact .inr (next request mem)
  rw [mainLoop_eq] at run
  rcases after_op_iff.mp run with ⟨rfl, rfl⟩ | ⟨reply, fs, rfl, later⟩
  · rcases submitted with ⟨e, mem, _⟩ | ⟨k, same⟩
    · cases mem
    · cases same
  · split at later
    · obtain ⟨rfl, rfl⟩ := after_done_iff.mp later
      rcases submitted with ⟨e, mem, same⟩ | ⟨k, same⟩
      · obtain rfl := List.mem_singleton.mp mem
        cases same
      · cases same
    · next succeeds =>
      obtain ⟨before, after⟩ := (uses_asksFor _ vars).after later
      have asks : ∃ ctrl, Event.ofBuf (overwrite eventFetchBuf reply.written) = .control ctrl ∧
          StandsFor ctrl request := by
        rcases submitted with ⟨e, mem, same⟩ | ⟨k, rfl⟩
        · rcases List.mem_cons.mp mem with rfl | mem
          · cases same
          · exact before e mem request same
        · exact after.1 request rfl
      obtain ⟨ctrl, event, stands⟩ := asks
      refine ⟨ctrl, List.mem_filterMap.mpr ⟨_, List.mem_cons_self, ?_⟩, stands⟩
      simp [eventOf, IoctlReply.Succeeds, succeeds, event, Gadget.requestOf]

/-- There is one such URB at most. -/
theorem iteration_asks (run : After (mainLoop vars) es rest)
    (next : ∀ request ∈ now, ∃ k, rest = .op (.submit request) k) (one : now.length ≤ 1) :
    List.SublistForall₂ (fun request ctrl => StandsFor ctrl request)
      ((answers es).map Prod.fst ++ now) (hostRequests es) := by
  have few : ((answers es).map Prod.fst ++ now).length ≤ 1 := by
    obtain ⟨m, left, paid⟩ := (costs_mainLoop_once vars).paid run
    rw [← length_answers] at paid
    rw [List.length_append, List.length_map]
    cases now with
    | nil => exact Nat.le_trans (Nat.le_add_right _ _) paid
    | cons request more =>
      obtain ⟨k, rfl⟩ := next request List.mem_cons_self
      have one' : 1 ≤ m := left.1
      omega
  have stands : ∀ request ∈ (answers es).map Prod.fst ++ now,
      ∃ ctrl ∈ hostRequests es, StandsFor ctrl request := fun _ => asked_of_fetched run next
  generalize (answers es).map Prod.fst ++ now = asked at few stands ⊢
  cases asked with
  | nil => exact .nil
  | cons request more =>
    obtain rfl : more = [] :=
      List.length_eq_zero_iff.mp (Nat.le_zero.mp (Nat.le_of_succ_le_succ few))
    obtain ⟨ctrl, mem, here⟩ := stands request List.mem_cons_self
    exact sublistForall₂_singleton here mem

end Iteration

theorem hostRequests_append (es fs : Trace) :
    hostRequests (es ++ fs) = hostRequests es ++ hostRequests fs := List.filterMap_append

/-- The same over the iterations of the event loop. -/
theorem iterates_asks {ess : List Trace} {vars : LoopState}
    (iterated : Iterates mainLoop ⟨none, []⟩ ess vars) :
    List.SublistForall₂ (fun request ctrl => StandsFor ctrl request)
      ((answers ess.flatten).map Prod.fst) (hostRequests ess.flatten) := by
  induction iterated with
  | start => exact .nil
  | next _ run ih =>
    have last := iteration_asks run (List.forall_mem_nil _) (Nat.zero_le 1)
    rw [List.append_nil] at last
    rw [List.flatten_append, List.flatten_singleton, answers_append, List.map_append,
      hostRequests_append]
    exact sublistForall₂_append ih last

/-! ## The iterations of a data thread -/

/-- A transfer on the endpoint of the thread, of one packet. -/
def Worker.Transfers (w : Worker) (request : UrbRequest) : Prop :=
  (w.IsIn ∧ request = w.inRequest) ∨
    (¬ w.IsIn ∧ ∃ block, block.length ≤ w.maxPacketSize.toNat ∧ request = w.outRequest block)

/-- All that is submitted is such a transfer. -/
def AsksOn (w : Worker) (o : Op) : Prop := ∀ request, o = .submit request → w.Transfers request

theorem uses_asksOn {w : Worker} {buf : List UInt8} (holds : HoldsPacket w buf) :
    Uses (AsksOn w) (w.iteration buf) := by
  by_cases isIn : w.IsIn
  · rw [iteration_in isIn]
    refine ⟨fun request same => .inl ⟨isIn, (Op.submit.inj same).symm⟩, fun result => ?_⟩
    cases result with
    | error e => trivial
    | ok ret =>
      dsimp only
      split
      · trivial
      · exact ⟨by simp [AsksOn], fun _ => trivial⟩
  · rw [iteration_out_eq isIn]
    refine ⟨by simp [AsksOn], fun reply => ?_⟩
    dsimp only
    split
    · trivial
    · refine ⟨fun request same => .inr ⟨isIn, ?_⟩, fun _ => trivial⟩
      obtain rfl := Op.submit.inj same
      refine ⟨_, ?_, by rw [Worker.outRequest, length_take_copyRead (Nat.le_refl _)]⟩
      rw [length_take_copyRead (Nat.le_refl _), ← holds isIn]
      exact copyRead_fst_le ..

namespace System

variable {log : SystemLog} {s : System}

theorem Rounds.asks {w : Worker} {ess : List Trace} {buf : List UInt8} (rounds : Rounds w ess buf) :
    HoldsPacket w buf ∧ ∀ e ∈ ess.flatten, AsksOn w e.op := by
  induction rounds with
  | start => exact ⟨initial_holdsPacket w, by simp⟩
  | next _ run ih =>
    obtain ⟨holds, before⟩ := ih
    refine ⟨(returns_packet holds).of_runs run _ rfl, fun e mem => ?_⟩
    rw [List.flatten_append, List.flatten_singleton, List.mem_append] at mem
    rcases mem with mem | mem
    · exact before e mem
    · exact ((uses_asksOn holds).after run).1 e mem

/-- Every call of a data thread is a transfer on its endpoint. -/
theorem Past.transfers {b : Bridge} {thread : DataThread} {es : Trace} {cs : List CallId}
    (past : Past b thread es cs) {c : CallId} (mem : c ∈ cs) :
    thread.worker.Transfers (b.calls c).request := by
  obtain ⟨ess, rounds, after, rfl⟩ := past.standing
  obtain ⟨done, rfl, outcomes⟩ := past.calls
  obtain ⟨holds, earlier⟩ := rounds.asks
  obtain ⟨now, next⟩ := (uses_asksOn holds).after after
  rcases List.mem_append.mp mem with mem | mem
  · obtain ⟨a, ha, outcome⟩ := outcome_of_mem outcomes mem
    obtain ⟨e, he, same⟩ := mem_answers ha
    rw [(Call.outcome_eq_some.mp outcome).1]
    rcases List.mem_append.mp he with he | he
    · exact earlier e he _ same
    · exact now e he _ same
  · obtain ⟨k, rest⟩ := past.current c (Option.mem_toList.mp mem)
    rw [rest] at next
    exact next.1 _ rfl

/-- The calls of the main thread stand for requests of the host, in their order. -/
theorem MainPast.asks (past : MainPast log s) : List.SublistForall₂
    (fun c ctrl => StandsFor ctrl (s.bridge.calls c).request) (mainCalls log)
    (hostRequests (mainHistory log)) := by
  obtain ⟨ess, iterated, after, history⟩ := past.standing
  obtain ⟨done, calls, outcomes⟩ := past.calling.calls
  have next : ∀ request ∈ s.main.call.toList.map fun c => (s.bridge.calls c).request,
      ∃ k, s.main.rest = .op (.submit request) k := by
    intro request mem
    obtain ⟨c, call, rfl⟩ := List.mem_map.mp mem
    exact past.calling.current c (Option.mem_toList.mp call)
  have current := iteration_asks after next (by cases s.main.call <;> simp)
  have requests : (mainCalls log).map (fun c => (s.bridge.calls c).request) =
      (answers ess.flatten).map Prod.fst ++ ((answers s.main.trace).map Prod.fst ++
        s.main.call.toList.map fun c => (s.bridge.calls c).request) := by
    rw [calls, List.map_append, requests_of_outcomes outcomes, history, answers_append,
      List.map_append, List.append_assoc]
  rw [← List.sublistForall₂_map_left_iff
    (f := fun c => (s.bridge.calls c).request) (R := fun request ctrl => StandsFor ctrl request),
    requests, history, hostRequests_append]
  exact sublistForall₂_append (iterates_asks iterated) current

/-! ## The commands of the threads -/

/-- The calls of `submit` that a thread has made. -/
def callsBy (log : SystemLog) : Caller → List CallId
  | .main => mainCalls log
  | .data t => callsOf t log

/-- Its commands on the wire. -/
def commandsBy (log : SystemLog) (s : System) : Caller → List (UInt32 × Command)
  | .main => mainCommands log s
  | .data t => commandsOf t log s

theorem mem_callsBy_snoc {e : Entry System Action Unit} {p : Caller} {c : CallId}
    (mem : c ∈ callsBy log p) : c ∈ callsBy (log ++ [e]) p := by
  cases p with
  | main =>
    rw [callsBy, mainCalls, filterMap_snoc]
    exact List.mem_append_left _ mem
  | data t =>
    rw [callsBy, callsOf, filterMap_snoc]
    exact List.mem_append_left _ mem

/-- A step takes a call into use for the thread that it is a step of. -/
theorem step_begins {s' : System} {a : Action} (move : s.step a = some s') {c : CallId}
    (idle : (s.bridge.calls c).pc = .idle) (begun : (s'.bridge.calls c).pc ≠ .idle) :
    ∃ p, c ∈ callsBy (log ++ [⟨s, a, (), s'⟩]) p := by
  have unmoved (same : s'.bridge = s.bridge) : False := begun (same ▸ idle)
  have called {request : UrbRequest} {bridge : Bridge}
      (start : s.bridge.start s.called request = some bridge) (here : s'.bridge = bridge) :
      c = s.called := by
    by_contra other
    obtain ⟨_, rfl⟩ := Bridge.start_cases start
    rw [here, Bridge.setCall_calls_of_ne _ _ other] at begun
    exact begun idle
  cases a with
  | main m =>
    cases mainStep_cases move with
    | submit rest call start =>
      obtain rfl := called start rfl
      refine ⟨.main, ?_⟩
      rw [callsBy, mainCalls, filterMap_snoc]
      exact List.mem_append_right _ (List.mem_singleton.mpr rfl)
    | ioctl | resume | spawn | join | next => exact (unmoved rfl).elim
  | thread t m =>
    obtain ⟨thread, live, stepped⟩ := Option.bind_eq_some_iff.mp move
    cases m with
    | submit =>
      obtain ⟨_, _, hbind⟩ := Option.bind_eq_some_iff.mp stepped
      obtain ⟨bridge, start, rfl⟩ := Option.map_eq_some_iff.mp hbind
      obtain rfl := called start rfl
      refine ⟨.data t, ?_⟩
      rw [callsBy, callsOf, filterMap_snoc]
      simp [calledAt]
    | ioctl | resume =>
      obtain ⟨_, _, rfl⟩ := Option.map_eq_some_iff.mp stepped
      exact (unmoved rfl).elim
    | next =>
      unfold threadStep at stepped
      dsimp only at stepped
      split at stepped
      · exact (unmoved (Option.some.inj stepped ▸ rfl)).elim
      · exact (unmoved (Option.some.inj stepped ▸ rfl)).elim
      · cases stepped
    | spawn | join => cases stepped
  | unwind t =>
    obtain ⟨thread, live, unwound⟩ := Option.bind_eq_some_iff.mp move
    obtain rfl := unwind_eq unwound
    exact (unmoved rfl).elim
  | bridge b =>
    have inside : ∀ c request, b ≠ .start c request := by
      rintro c request rfl
      cases move
    have hop : s.bridge.step b = some s'.bridge := by
      cases b with
      | start c request => exact absurd rfl (inside c request)
      | _ =>
        obtain ⟨_, hop, rfl⟩ := Option.map_eq_some_iff.mp move
        exact hop
    exact absurd ((Bridge.step_underWay hop inside c).2.mpr idle) begun

/-- Every call that was taken into use is that of a thread. -/
theorem made_of_run {build : Build} {input : Input} {output : Output} {busnum devnum : UInt32}
    (run : Logged perform (imported build input output busnum devnum) log s) {c : CallId}
    (begun : (s.bridge.calls c).pc ≠ .idle) : ∃ p, c ∈ callsBy log p := by
  induction run with
  | start => exact absurd rfl begun
  | @next log s s' a o earlier hop ih =>
    obtain ⟨_, move, same⟩ := Option.map_eq_some_iff.mp hop
    cases same
    by_cases idle : (s.bridge.calls c).pc = .idle
    · exact step_begins move idle begun
    · obtain ⟨p, mem⟩ := ih idle
      exact ⟨p, mem_callsBy_snoc mem⟩

theorem mem_commandsBy {p : Caller} {cmd : UInt32 × Command} : cmd ∈ commandsBy log s p ↔
    cmd ∈ s.bridge.split.written ∧
      ∃ c ∈ callsBy log p, (s.bridge.calls c).seqnum = some cmd.1 := by
  cases p with
  | main =>
    simp only [commandsBy, mainCommands, callsBy, Bridge.numbers, List.mem_filter,
      List.mem_filterMap, decide_eq_true_eq]
  | data t =>
    simp only [commandsBy, commandsOf, callsBy, Bridge.numbers, List.mem_filter,
      List.mem_filterMap, decide_eq_true_eq]

theorem Histories.same_caller (h : Histories log s) {p q : Caller} {c : CallId}
    (mine : c ∈ callsBy log p) (yours : c ∈ callsBy log q) : q = p := by
  cases p with
  | main =>
    cases q with
    | main => rfl
    | data t => exact absurd mine (h.mainApart t c yours)
  | data t =>
    cases q with
    | main => exact absurd yours (h.mainApart t c mine)
    | data u => exact congrArg Caller.data (h.apart u t c yours mine)

/-- What is on the wire under the number of a call is the command of that call. -/
theorem Sound.command_of_number (h : Sound log s)
    (bound : s.bridge.split.issued.length < 2 ^ 32 - 1) {c : CallId} {cmd : UInt32 × Command}
    (written : cmd ∈ s.bridge.split.written) (number : (s.bridge.calls c).seqnum = some cmd.1) :
    cmd.2 = .submit (s.bridge.calls c).request.args :=
  h.wired.split.unique (by omega) written (h.inv.numbered c _ number)

/-- Somebody stands behind each command on the wire. -/
structure Accountable (log : SystemLog) (s : System) : Prop where
  /-- It is that of one thread and no other. -/
  one : ∀ cmd ∈ s.bridge.split.written, ∃! p, cmd ∈ commandsBy log s p
  /-- The main thread passes on control requests, each once at most and in the order
  of the host. -/
  main : List.SublistForall₂ (fun cmd ctrl =>
      ∃ request, cmd.2 = .submit request.args ∧ StandsFor ctrl request)
    (commandsBy log s .main) (hostRequests (mainHistory log))
  /-- A data thread asks for transfers on the endpoint it was spawned for. -/
  data : ∀ t, ∀ cmd ∈ commandsBy log s (.data t), ∃ worker ∈ workersOf t log,
    ∃ request, cmd.2 = .submit request.args ∧ worker.Transfers request

section Runs

variable {build : Build} {input : Input} {output : Output} {busnum devnum : UInt32}

/-- A command on the wire is that of a call which has begun. -/
theorem call_of_written (run : Logged perform (imported build input output busnum devnum) log s)
    (bound : s.bridge.split.issued.length < 2 ^ 32 - 1) {cmd : UInt32 × Command}
    (written : cmd ∈ s.bridge.split.written) :
    ∃ c, (s.bridge.calls c).seqnum = some cmd.1 ∧ (s.bridge.calls c).pc ≠ .idle := by
  have inside := reaches_bridge run.reaches
  have inv := (sound_of_run run bound).inv
  rcases Bridge.attributed_of_run inside bound _ _ written with result | ⟨c, number, wrote⟩
  · -- `send_submit` has just returned, and the call has still to see it.
    obtain ⟨c, sending⟩ := (Bridge.scopes_reachable inside).busy.mp (by rw [result]; rfl)
    obtain ⟨n, issued, same⟩ := inv.split.result _ result
    obtain ⟨n', issued', number⟩ := inv.sending c sending
    obtain rfl : n = n' := by omega
    exact ⟨c, same ▸ number, by simp [sending]⟩
  · refine ⟨c, number, fun idle => ?_⟩
    cases inv.progress c with
    | unnumbered _ none => cases none.symm.trans number
    | sending pc | failed pc | returned pc => cases idle.symm.trans pc
    | registering pc => rcases pc with pc | pc <;> cases idle.symm.trans pc
    | waiting pc | answered pc => rw [idle] at pc; cases pc

/-- In every run of the whole program below the limit of the counter, for any server
and any interleaving. -/
theorem server_asked (run : Logged perform (imported build input output busnum devnum) log s)
    (bound : s.bridge.split.issued.length < 2 ^ 32 - 1) : Accountable log s := by
  have sound := sound_of_run run bound
  refine ⟨fun cmd written => ?_, ?_, fun t cmd mem => ?_⟩
  · obtain ⟨c, number, begun⟩ := call_of_written run bound written
    obtain ⟨p, mine⟩ := made_of_run run begun
    refine ⟨p, mem_commandsBy.mpr ⟨written, c, mine, number⟩, fun q other => ?_⟩
    obtain ⟨_, d, yours, number'⟩ := mem_commandsBy.mp other
    obtain rfl := sound.inv.own c d _ number number'
    exact sound.histories.same_caller mine yours
  · have asks := (mainPast_of_run run).asks
    rw [commandsBy, mainCommands, sound.commands_of_calls bound (mainCalls_ordered run bound)]
    refine sublistForall₂_of_sublist ?_ List.filter_sublist
    refine sublistForall₂_filterMap asks fun c ctrl cmd stands found => ?_
    obtain ⟨k, _, rfl⟩ := Option.map_eq_some_iff.mp found
    exact ⟨_, rfl, stands⟩
  · obtain ⟨written, c, mine, number⟩ := mem_commandsBy.mp mem
    cases sound.histories.told t with
    | unspawned _ _ _ calls => exact absurd mine (by simp [callsBy, calls])
    | @past thread _ past _ workers =>
      exact ⟨thread.worker, by simp [workers], _,
        sound.command_of_number bound written number, past.transfers mine⟩

end Runs

/-- Four commands, of which the third is that of the data thread. -/
theorem server_asked_both : ∃ (log : SystemLog) (s : System),
    s.bridge.split.written.map Prod.fst = [1, 2, 3, 4] ∧ Accountable log s := by
  obtain ⟨s, reached, found⟩ := Reaches.of_exec_any System.step always_of_anyStep device bothAsk
    (fun s => decide (s.bridge.split.issued.length < 2 ^ 32 - 1 ∧
      s.bridge.split.written.map Prod.fst = [1, 2, 3, 4])) (by decide +kernel)
  obtain ⟨bound, numbers⟩ := of_decide_eq_true found
  obtain ⟨log, run⟩ := Logged.of_reaches reached
  exact ⟨log, s, numbers, server_asked run bound⟩

end System

end UsbipDevirt
