import Mathlib.Data.List.Sort
import UsbipDevirt.Histories

/-!
# The data of an endpoint

Many data threads share one connection. Each has one URB outstanding at a time,
and the answers are matched by sequence number, so what an IN thread hands to
its endpoint are the payloads of the answers to its own URBs in order, and what
an OUT thread has on the wire are the blocks it has read, in order and once
each, whatever the other threads do.
-/

namespace UsbipDevirt

open Transition Program Program.Prog RawGadgetDevice

/-! ## Blocks -/

/-- What `ep_read` returns for this answer of the kernel. -/
def readBlock (header : UsbRawEpIoHeader) (reply : IoctlReply) : List UInt8 :=
  (copyRead [] header.length.toNat header.length.toNat reply).2

/-- The blocks that `ep_read` has returned in a trace. -/
def blocksRead (es : Trace) : List (List UInt8) := es.filterMap fun e =>
  match e with
  | ⟨.ioctl (.epRead header), reply⟩ =>
    if reply.Succeeds then some (readBlock header reply) else none
  | _ => none

/-- The blocks that were passed to `ep_write` in a trace. -/
def blocksWritten (es : Trace) : List (List UInt8) := es.filterMap fun e =>
  match e with
  | ⟨.ioctl (.epWrite _ data), _⟩ => some data
  | _ => none

@[simp] theorem blocksRead_append (es fs : Trace) :
    blocksRead (es ++ fs) = blocksRead es ++ blocksRead fs := List.filterMap_append

@[simp] theorem blocksRead_nil : blocksRead [] = [] := rfl

@[simp] theorem blocksRead_cons_submit (request : UrbRequest) (result : Reply (.submit request))
    (es : Trace) : blocksRead (⟨.submit request, result⟩ :: es) = blocksRead es := rfl

theorem blocksRead_cons_of_fails {reply : IoctlReply} (failed : reply.ret < 0)
    (header : UsbRawEpIoHeader) (es : Trace) :
    blocksRead (⟨.ioctl (.epRead header), reply⟩ :: es) = blocksRead es := by
  simp [blocksRead, IoctlReply.Succeeds, failed]

theorem blocksRead_cons_of_succeeds {reply : IoctlReply} (succeeds : ¬ reply.ret < 0)
    (header : UsbRawEpIoHeader) (es : Trace) :
    blocksRead (⟨.ioctl (.epRead header), reply⟩ :: es) =
      readBlock header reply :: blocksRead es :=
  List.filterMap_cons_some (if_pos succeeds)

@[simp] theorem blocksWritten_append (es fs : Trace) :
    blocksWritten (es ++ fs) = blocksWritten es ++ blocksWritten fs := List.filterMap_append

@[simp] theorem blocksWritten_nil : blocksWritten [] = [] := rfl

@[simp] theorem blocksWritten_cons_submit (request : UrbRequest)
    (result : Reply (.submit request)) (es : Trace) :
    blocksWritten (⟨.submit request, result⟩ :: es) = blocksWritten es := rfl

@[simp] theorem blocksWritten_cons_epWrite (header : UsbRawEpIoHeader) (data : List UInt8)
    (reply : Reply (.ioctl (.epWrite header data))) (es : Trace) :
    blocksWritten (⟨.ioctl (.epWrite header data), reply⟩ :: es) = data :: blocksWritten es := rfl

/-- The block does not depend on the buffer it is read into, only on its length. -/
theorem readBlock_eq (ep : EpHandle) {buf : List UInt8} (small : buf.length < 2 ^ 32)
    (reply : IoctlReply) : readBlock (epHeader ep buf.length) reply =
      (copyRead buf buf.length buf.length reply).2.take
        (copyRead buf buf.length buf.length reply).1 := by
  have length : (epHeader ep buf.length).length.toNat = buf.length := by
    simp only [epHeader, UInt32.toNat_ofNat']
    omega
  simp only [readBlock, length, copyRead, List.drop_nil, List.append_nil]
  rw [List.take_left']
  simp only [List.length_take, length_overwrite, List.length_replicate]
  omega

theorem length_readBlock_lt (header : UsbRawEpIoHeader) (reply : IoctlReply) :
    (readBlock header reply).length < 2 ^ 32 := by
  have limit := header.length.toNat_lt
  simp only [readBlock, copyRead, List.drop_nil, List.append_nil, List.length_take]
  omega

def Command.payload : Command → List UInt8
  | .submit args => args.data
  | .unlink _ => []

/-! ## Iterations -/

/-- The URB of an IN thread. -/
def Worker.inRequest (w : Worker) : UrbRequest := w.request .in [] w.maxPacketSize

/-- The answer to an URB of an IN thread. -/
def Worker.inAnswer (w : Worker) (ret : RetSubmit) : UrbRequest × Except IoError RetSubmit :=
  (w.inRequest, .ok ret)

/-- The URB of an OUT thread for this block. -/
def Worker.outRequest (w : Worker) (block : List UInt8) : UrbRequest :=
  w.request .out block (UInt32.ofNat block.length)

theorem iteration_in {w : Worker} (isIn : w.IsIn) (buf : List UInt8) :
    w.iteration buf = .op (.submit w.inRequest) fun result =>
      match result with
      | .error _ => .done (.ok none)
      | .ok ret =>
        if ret.status ≠ 0 then .done (.ok none)
        else .op (.ioctl (.epWrite (epHeader w.handle ret.data.length) ret.data)) fun reply =>
          .done (.ok (if reply.ret < 0 then none else some buf)) := by
  unfold Worker.iteration Worker.inIteration
  rw [if_pos isIn, submit_bind, op_bind]
  congr 1
  funext result
  cases result with
  | error e => rfl
  | ok ret =>
    by_cases failed : ret.status ≠ 0
    · simp [failed]
    · simp only [failed, if_false, epWrite, rawIoctl_bind, op_bind]
      congr 1
      funext reply
      split <;> rfl

theorem iteration_out {w : Worker} (isOut : ¬ w.IsIn) {buf : List UInt8}
    (small : buf.length < 2 ^ 32) :
    w.iteration buf = .op (.ioctl (.epRead (epHeader w.handle buf.length))) fun reply =>
      if reply.ret < 0 then .done (.ok none)
      else .op (.submit (w.outRequest (readBlock (epHeader w.handle buf.length) reply)))
        fun result => match result with
        | .error _ => .done (.ok none)
        | .ok ret =>
          if ret.status ≠ 0 then .done (.ok none)
          else .done (.ok (some (copyRead buf buf.length buf.length reply).2)) := by
  unfold Worker.iteration Worker.outIteration epRead
  rw [if_neg isOut]
  simp only [rawIoctl_bind, op_bind]
  congr 1
  funext reply
  by_cases failed : reply.ret < 0
  · simp only [if_pos failed]
    rfl
  · have request : w.request .out ((copyRead buf buf.length buf.length reply).2.take
        (copyRead buf buf.length buf.length reply).1)
        (UInt32.ofNat (copyRead buf buf.length buf.length reply).1) =
        w.outRequest (readBlock (epHeader w.handle buf.length) reply) := by
      rw [Worker.outRequest, readBlock_eq w.handle small,
        length_take_copyRead (Nat.le_refl buf.length) buf reply]
    simp only [if_neg failed, pure_eq, done_ok_bind, Except.map]
    rw [submit_bind, request]
    congr 1
    funext result
    cases result <;> rfl

namespace System

/-! ## IN threads -/

/-- The blocks written are the data of the first answers, all with status 0. -/
def InTrace (w : Worker) (es : Trace) : Prop := ∃ rets : List RetSubmit,
  (∀ ret ∈ rets, ret.status = 0) ∧ rets.map w.inAnswer <+: answers es ∧
    blocksWritten es = rets.map (·.data)

/-- Every answer of a completed iteration has been written. -/
theorem rounds_in {w : Worker} (isIn : w.IsIn) {ess : List Trace} {buf : List UInt8}
    (rounds : Rounds w ess buf) : ∃ rets : List RetSubmit, (∀ ret ∈ rets, ret.status = 0) ∧
      answers ess.flatten = rets.map w.inAnswer ∧
      blocksWritten ess.flatten = rets.map (·.data) := by
  induction rounds with
  | start => exact ⟨[], by simp, rfl, rfl⟩
  | @next ess es buf buf' _ run ih =>
    obtain ⟨rets, statuses, hanswers, hwritten⟩ := ih
    rw [iteration_in isIn] at run
    obtain ⟨result, es, rfl, later⟩ := runs_op_iff.mp run
    cases result with
    | error e => simp at later
    | ok ret =>
      by_cases status : ret.status = 0
      · simp only [status, ne_eq, not_true_eq_false, if_false, runs_op_iff, runs_done_iff] at later
        obtain ⟨reply, _, rfl, rfl, _⟩ := later
        refine ⟨rets ++ [ret], ?_, ?_, ?_⟩
        · simpa [or_imp, forall_and] using ⟨statuses, status⟩
        · simp [hanswers, Worker.inAnswer]
        · simp [hwritten]
      · simp [status] at later

theorem after_in {w : Worker} (isIn : w.IsIn) {buf : List UInt8} {es : Trace}
    {rest : Routine (Option (List UInt8))} (run : After (w.iteration buf) es rest) :
    InTrace w es := by
  rw [iteration_in isIn] at run
  rcases after_op_iff.mp run with ⟨rfl, _⟩ | ⟨result, es, rfl, later⟩
  · exact ⟨[], by simp, by simp, rfl⟩
  cases result with
  | error e =>
    obtain ⟨rfl, _⟩ := after_done_iff.mp later
    exact ⟨[], by simp, by simp, rfl⟩
  | ok ret =>
    by_cases status : ret.status = 0
    · simp only [status, ne_eq, not_true_eq_false, if_false, after_op_iff, after_done_iff] at later
      rcases later with ⟨rfl, _⟩ | ⟨reply, _, rfl, rfl, _⟩
      · exact ⟨[], by simp, by simp, rfl⟩
      · exact ⟨[ret], by simpa using status, by simp [Worker.inAnswer], by simp⟩
    · simp only [status, ne_eq, not_false_eq_true, if_true, after_done_iff] at later
      obtain ⟨rfl, _⟩ := later
      exact ⟨[], by simp, by simp, rfl⟩

theorem Past.inTrace {b : Bridge} {thread : DataThread} {es : Trace} {cs : List CallId}
    (h : Past b thread es cs) (isIn : thread.worker.IsIn) : InTrace thread.worker es := by
  obtain ⟨ess, rounds, after, rfl⟩ := h.standing
  obtain ⟨rets, statuses, hanswers, hwritten⟩ := rounds_in isIn rounds
  obtain ⟨last, statuses', hanswers', hwritten'⟩ := after_in isIn after
  refine ⟨rets ++ last, ?_, ?_, ?_⟩
  · simpa only [List.forall_mem_append] using ⟨statuses, statuses'⟩
  · rw [List.map_append, answers_append, hanswers]
    exact (List.prefix_append_right_inj _).mpr hanswers'
  · simp [hwritten, hwritten']

/-! ## OUT threads -/

theorem rounds_out {w : Worker} (isOut : ¬ w.IsIn) {ess : List Trace} {buf : List UInt8}
    (rounds : Rounds w ess buf) : buf.length = w.maxPacketSize.toNat ∧
      (answers ess.flatten).map Prod.fst = (blocksRead ess.flatten).map w.outRequest ∧
      ∀ p ∈ answers ess.flatten, ∃ ret, p.2 = .ok ret := by
  induction rounds with
  | start => simp [Worker.initial, isOut]
  | @next ess es buf buf' _ run ih =>
    obtain ⟨length, requests, results⟩ := ih
    rw [iteration_out isOut (length ▸ UInt32.toNat_lt _)] at run
    obtain ⟨reply, es, rfl, read⟩ := runs_op_iff.mp run
    by_cases failed : reply.ret < 0
    · simp [failed] at read
    rw [if_neg failed] at read
    obtain ⟨result, es, rfl, sent⟩ := runs_op_iff.mp read
    cases result with
    | error e => simp at sent
    | ok ret =>
      by_cases status : ret.status = 0
      · simp only [status, ne_eq, not_true_eq_false, if_false, runs_done_iff] at sent
        obtain ⟨rfl, same⟩ := sent
        obtain rfl := Option.some.inj (Except.ok.inj same)
        refine ⟨?_, ?_, ?_⟩
        · rw [length_copyRead (Nat.le_refl _) (Nat.le_refl _), length]
        · simp [requests, blocksRead_cons_of_succeeds failed]
        · simpa [or_imp, forall_and] using results
      · simp [status] at sent

/-- Between the read of a block and the return of its `submit`, the thread is
about to submit that block or in the call that does. -/
theorem after_out {w : Worker} (isOut : ¬ w.IsIn) {buf : List UInt8}
    (small : buf.length < 2 ^ 32) {es : Trace} {rest : Routine (Option (List UInt8))}
    (run : After (w.iteration buf) es rest) :
    ((∀ request k, rest ≠ .op (.submit request) k) ∧ (answers es).length ≤ 1 ∧
      (answers es).map Prod.fst = (blocksRead es).map w.outRequest) ∨
    ∃ block k, rest = .op (.submit (w.outRequest block)) k ∧ answers es = [] ∧
      blocksRead es = [block] := by
  rw [iteration_out isOut small] at run
  rcases after_op_iff.mp run with ⟨rfl, rfl⟩ | ⟨reply, es, rfl, read⟩
  · exact .inl (by simp)
  by_cases failed : reply.ret < 0
  · rw [if_pos failed] at read
    obtain ⟨rfl, rfl⟩ := after_done_iff.mp read
    exact .inl (by simp [blocksRead_cons_of_fails failed])
  rw [if_neg failed] at read
  rcases after_op_iff.mp read with ⟨rfl, rfl⟩ | ⟨result, es, rfl, sent⟩
  · exact .inr ⟨_, _, rfl, rfl, blocksRead_cons_of_succeeds failed ..⟩
  have ended : es = [] ∧ ∃ result, rest = .done result := by
    cases result with
    | error e =>
      obtain ⟨rfl, rfl⟩ := after_done_iff.mp sent
      exact ⟨rfl, _, rfl⟩
    | ok ret =>
      by_cases status : ret.status ≠ 0
      · simp only [if_pos status, after_done_iff] at sent
        exact ⟨sent.1, _, sent.2⟩
      · simp only [if_neg status, after_done_iff] at sent
        exact ⟨sent.1, _, sent.2⟩
  obtain ⟨rfl, _, rfl⟩ := ended
  exact .inl (by simp [blocksRead_cons_of_succeeds failed])

/-- The requests of the calls are the blocks read, up to one, and all but one
of the calls have succeeded. -/
structure OutTrace (b : Bridge) (w : Worker) (es : Trace) (cs : List CallId) : Prop where
  requests : cs.map (fun c => (b.calls c).request) <+: (blocksRead es).map w.outRequest
  succeeded : ∃ done, done <+: cs ∧ (blocksRead es).length ≤ done.length + 1 ∧
    ∀ c ∈ done, ∃ ret, (b.calls c).pc = .returned (.ok ret)

theorem Past.outTrace {b : Bridge} {thread : DataThread} {es : Trace} {cs : List CallId}
    (h : Past b thread es cs) (isOut : ¬ thread.worker.IsIn) :
    OutTrace b thread.worker es cs := by
  obtain ⟨ess, rounds, after, rfl⟩ := h.standing
  obtain ⟨done, rfl, outcomes⟩ := h.calls
  obtain ⟨length, requests, results⟩ := rounds_out isOut rounds
  rw [answers_append] at outcomes
  have requests' := requests_of_outcomes outcomes
  obtain ⟨oks, last, rfl, houtcomes, houtcomes'⟩ :=
    List.map_eq_append_iff.mp (outcomes.trans List.map_append)
  have succeeded : ∀ c ∈ oks, ∃ ret, (b.calls c).pc = .returned (.ok ret) := by
    intro c mem
    obtain ⟨⟨request, result⟩, ha, outcome⟩ := outcome_of_mem houtcomes mem
    obtain ⟨ret, rfl⟩ := results _ ha
    exact ⟨ret, (Call.outcome_eq_some.mp outcome).2⟩
  have count : oks.length = (blocksRead ess.flatten).length := by
    have answered := congrArg List.length houtcomes
    have asked := congrArg List.length requests
    simp only [List.length_map] at answered asked
    omega
  rcases after_out isOut (length ▸ UInt32.toNat_lt _) after with
    ⟨elsewhere, one, requested⟩ | ⟨block, k, rest, none, read⟩
  · have idle := h.idle elsewhere
    have asked := congrArg List.length requested
    simp only [List.length_map] at asked
    refine ⟨?_, oks, ?_, ?_, succeeded⟩
    · rw [idle, Option.toList_none, List.append_nil, requests', List.map_append, requests,
        requested, blocksRead_append, List.map_append]
    · rw [List.append_assoc]
      exact List.prefix_append ..
    · rw [blocksRead_append, List.length_append]
      omega
  · rw [none, List.map_nil, List.map_eq_nil_iff] at houtcomes'
    subst houtcomes'
    rw [List.append_nil] at requests'
    refine ⟨?_, oks, ?_, ?_, succeeded⟩
    · rw [List.append_nil, List.map_append, requests', none, List.append_nil, requests,
        blocksRead_append, List.map_append, read]
      refine (List.prefix_append_right_inj _).mpr ?_
      cases call : thread.activity.call with
      | none => exact List.nil_prefix
      | some c =>
        obtain ⟨_, here⟩ := h.current c call
        have request : thread.worker.outRequest block = (b.calls c).request := by
          injection rest.symm.trans here with same
          exact Op.submit.inj same
        simp [request]
    · rw [List.append_nil]
      exact List.prefix_append ..
    · simp [read, count]

/-! ## Commands and replies of one thread -/

/-- The command of a call under its number, once it has one. -/
def entry (b : Bridge) (c : CallId) : Option (UInt32 × Command) :=
  (b.calls c).seqnum.map fun k => (k, .submit (b.calls c).request.args)

/-- The first RET_SUBMIT for a number. -/
def replyTo (b : Bridge) (k : UInt32) : Option RetSubmit :=
  (b.split.decoded.map Prod.snd).find? fun ret => ret.seqnum = k

/-- The CMD_SUBMITs on the wire under the numbers of thread `t`, in wire order. -/
def commandsOf (t : ThreadId) (log : SystemLog) (s : System) : List (UInt32 × Command) :=
  s.bridge.split.written.filter fun p => p.1 ∈ s.bridge.numbers (callsOf t log)

/-- The RET_SUBMITs to these commands, in the order of the commands. -/
def repliesTo (t : ThreadId) (log : SystemLog) (s : System) : List RetSubmit :=
  (commandsOf t log s).filterMap fun p => replyTo s.bridge p.1

/-- What is known of a run below the limit of the counter. -/
structure Sound (log : SystemLog) (s : System) : Prop where
  histories : Histories log s
  inv : s.bridge.Inv
  wired : s.bridge.Wired
  ordered : ∀ t, (s.bridge.numbers (callsOf t log)).Pairwise (· < ·)

/-- All calls of a thread but the last have returned. -/
theorem Histories.returned {log : SystemLog} {s : System} (h : Histories log s) (t : ThreadId) :
    ∃ done last, callsOf t log = done ++ Option.toList last ∧
      ∀ c ∈ done, ∃ result, (s.bridge.calls c).pc = .returned result := by
  cases h.told t with
  | unspawned _ _ _ calls => exact ⟨[], none, calls, by simp⟩
  | @past thread _ past =>
    obtain ⟨done, calls, outcomes⟩ := past.calls
    refine ⟨done, thread.activity.call, calls, fun c mem => ?_⟩
    obtain ⟨⟨request, result⟩, _, outcome⟩ := outcome_of_mem outcomes mem
    exact ⟨result, (Call.outcome_eq_some.mp outcome).2⟩

theorem Sound.step {log : SystemLog} {s s' : System} {a : Action} (h : Sound log s)
    (move : s.step a = some s') (bound : s'.bridge.split.issued.length < 2 ^ 32) :
    Sound (log ++ [⟨s, a, (), s'⟩]) s' := by
  have ordered (t : ThreadId) : (s'.bridge.numbers (callsOf t log)).Pairwise (· < ·) := by
    obtain ⟨done, last, calls, returned⟩ := h.histories.returned t
    have before := h.ordered t
    rcases step_bridge move with same | ⟨_, hop⟩
    · rwa [same]
    · rw [calls] at before ⊢
      exact Bridge.numbers_step h.inv hop bound returned before
  refine ⟨h.histories.step move, ?_, ?_, fun t => ?_⟩
  · rcases step_bridge move with same | ⟨_, hop⟩
    · exact same ▸ h.inv
    · exact h.inv.step hop bound
  · rcases step_bridge move with same | ⟨_, hop⟩
    · exact same ▸ h.wired
    · exact h.wired.step h.inv hop bound
  · have unnumbered : s'.bridge.numbers (calledAt t ⟨s, a, (), s'⟩).toList = [] := by
      cases called : calledAt t ⟨s, a, (), s'⟩ with
      | none => rfl
      | some c =>
        obtain ⟨_, _, _, none⟩ := calledAt_eq move called
        simp [Bridge.numbers, none]
    rw [callsOf, filterMap_snoc, Bridge.numbers_append, unnumbered, List.append_nil]
    exact ordered t

theorem step_issued_le {s s' : System} {a : Action} (move : s.step a = some s') :
    s.bridge.split.issued.length ≤ s'.bridge.split.issued.length := by
  rcases step_bridge move with same | ⟨_, hop⟩
  · rw [same]
  · exact Bridge.issued_length_le hop

theorem sound_of_run {build : Build} {input : Input} {output : Output} {busnum devnum : UInt32}
    {log : SystemLog} {s : System}
    (run : Logged perform (imported build input output busnum devnum) log s)
    (bound : s.bridge.split.issued.length < 2 ^ 32 - 1) : Sound log s := by
  refine run.invariant (fun log s => s.bridge.split.issued.length < 2 ^ 32 - 1 → Sound log s)
    (fun _ => ⟨.initial _, .initial .., .initial .., ?_⟩)
    (fun log s a _ s' ih hop bound => ?_) bound
  · simp [callsOf, Bridge.numbers]
  · obtain ⟨_, move, same⟩ := Option.map_eq_some_iff.mp hop
    cases same
    have grown := step_issued_le move
    exact (ih (by omega)).step move (by omega)

section Sound

variable {log : SystemLog} {s : System}

theorem entries_fst (b : Bridge) (cs : List CallId) :
    (cs.filterMap (entry b)).map Prod.fst = b.numbers cs := by
  simp [List.map_filterMap, entry, Bridge.numbers, Option.map_map, Function.comp_def]

/-- The commands of successive calls stand on the wire in the order of these calls. -/
theorem Sound.commands_of_calls (h : Sound log s)
    (bound : s.bridge.split.issued.length < 2 ^ 32 - 1) {cs : List CallId}
    (ordered : (s.bridge.numbers cs).Pairwise (· < ·)) :
    (s.bridge.split.written.filter fun p => p.1 ∈ s.bridge.numbers cs) =
      (cs.filterMap (entry s.bridge)).filter fun p => p ∈ s.bridge.split.written := by
  have written : s.bridge.split.written.Pairwise (Order.Preimage Prod.fst (· < ·)) :=
    (List.pairwise_map (f := Prod.fst)).mp h.wired.split.ordered
  have entries : (cs.filterMap (entry s.bridge)).Pairwise (Order.Preimage Prod.fst (· < ·)) := by
    rw [← entries_fst] at ordered
    exact (List.pairwise_map (f := Prod.fst)).mp ordered
  refine (written.filter _).eq_of_mem_iff (entries.filter _) fun p => ?_
  simp only [List.mem_filter, decide_eq_true_eq]
  refine and_comm.trans (and_congr_left fun mem => ?_)
  rw [← entries_fst]
  refine ⟨fun number => ?_, fun known => List.mem_map_of_mem known⟩
  obtain ⟨⟨k, cmd⟩, known, same⟩ := List.mem_map.mp number
  obtain ⟨c, hc, here⟩ := List.mem_filterMap.mp known
  obtain ⟨k', seqnum, heq⟩ := Option.map_eq_some_iff.mp here
  obtain ⟨rfl, rfl⟩ := Prod.mk.inj heq
  have wrote : (k', p.2) ∈ s.bridge.split.written := by
    rw [show k' = p.1 from same]
    exact mem
  rwa [← h.wired.split.unique (by omega) wrote (h.inv.numbered c k' seqnum),
    show k' = p.1 from same] at known

theorem Sound.commandsOf_eq (h : Sound log s)
    (bound : s.bridge.split.issued.length < 2 ^ 32 - 1) (t : ThreadId) :
    commandsOf t log s = ((callsOf t log).filterMap (entry s.bridge)).filter
      fun p => p ∈ s.bridge.split.written := h.commands_of_calls bound (h.ordered t)

/-- The command of a call that has returned `Ok` is on the wire, and so is the
reply it has returned. -/
theorem Sound.returned_ok (h : Sound log s) {c : CallId} {ret : RetSubmit}
    (pc : (s.bridge.calls c).pc = .returned (.ok ret)) :
    entry s.bridge c = some (ret.seqnum, .submit (s.bridge.calls c).request.args) ∧
      (ret.seqnum, .submit (s.bridge.calls c).request.args) ∈ s.bridge.split.written ∧
      replyTo s.bridge ret.seqnum = some ret := by
  obtain ⟨seqnum, handled⟩ := h.inv.returned_ok pc
  obtain ⟨header, decoded⟩ := h.inv.handled_decoded handled
  refine ⟨by rw [entry, seqnum, Option.map_some], ?_, ?_⟩
  · exact h.wired.wrote c ret.seqnum seqnum (h.inv.returned_wrote pc)
  · refine find?_of_nodup ?_ (List.mem_map_of_mem decoded)
    have nodup := h.inv.decoded_seqnums_nodup
    rwa [List.map_map]

theorem Sound.replies_of_answers (h : Sound log s) {w : Worker} {cs : List CallId}
    {rets : List RetSubmit}
    (outcomes : cs.map (fun c => (s.bridge.calls c).outcome) = (rets.map w.inAnswer).map some) :
    ((cs.filterMap (entry s.bridge)).filter fun p => p ∈ s.bridge.split.written).filterMap
      (fun p => replyTo s.bridge p.1) = rets := by
  induction cs generalizing rets with
  | nil =>
    cases rets with
    | nil => rfl
    | cons ret rets => cases outcomes
  | cons c cs ih =>
    cases rets with
    | nil => cases outcomes
    | cons ret rets =>
      obtain ⟨head, tail⟩ := List.cons.inj outcomes
      obtain ⟨entered, written, found⟩ := h.returned_ok (Call.outcome_eq_some.mp head).2
      rw [List.filterMap_cons_some entered, List.filter_cons_of_pos (by simpa using written),
        List.filterMap_cons]
      simp only [found, ih tail]

theorem Sound.in_replies (h : Sound log s) (bound : s.bridge.split.issued.length < 2 ^ 32 - 1)
    {t : ThreadId} {thread : DataThread}
    (past : Past s.bridge thread (history t log) (callsOf t log)) (isIn : thread.worker.IsIn) :
    ∃ rets, rets <+: repliesTo t log s ∧ (∀ ret ∈ rets, ret.status = 0) ∧
      blocksWritten (history t log) = rets.map (·.data) := by
  obtain ⟨rets, statuses, ⟨more, answered⟩, written⟩ := past.inTrace isIn
  obtain ⟨done, calls, outcomes⟩ := past.calls
  rw [← answered, List.map_append] at outcomes
  obtain ⟨first, rest, rfl, houtcomes, _⟩ := List.map_eq_append_iff.mp outcomes
  refine ⟨rets, ?_, statuses, written⟩
  rw [repliesTo, h.commandsOf_eq bound, calls, List.append_assoc, List.filterMap_append,
    List.filter_append, List.filterMap_append, h.replies_of_answers houtcomes]
  exact List.prefix_append ..

/-- The commands of these calls that are on the wire. -/
def sentBy (b : Bridge) (cs : List CallId) : List Command :=
  ((cs.filterMap (entry b)).filter fun p => p ∈ b.split.written).map Prod.snd

theorem sentBy_append (b : Bridge) (cs ds : List CallId) :
    sentBy b (cs ++ ds) = sentBy b cs ++ sentBy b ds := by
  simp only [sentBy, List.filterMap_append, List.filter_append, List.map_append]

theorem sentBy_singleton_prefix (b : Bridge) (c : CallId) :
    sentBy b [c] <+: [.submit (b.calls c).request.args] := by
  cases seqnum : (b.calls c).seqnum with
  | none => simp [sentBy, entry, seqnum]
  | some k =>
    by_cases written : (k, Command.submit (b.calls c).request.args) ∈ b.split.written
    · simp [sentBy, entry, seqnum, written]
    · simp [sentBy, entry, seqnum, written]

theorem Sound.sentBy_succeeded (h : Sound log s) {cs : List CallId}
    (succeeded : ∀ c ∈ cs, ∃ ret, (s.bridge.calls c).pc = .returned (.ok ret)) :
    sentBy s.bridge cs = cs.map fun c => .submit (s.bridge.calls c).request.args := by
  induction cs with
  | nil => rfl
  | cons c cs ih =>
    obtain ⟨⟨ret, pc⟩, later⟩ := List.forall_mem_cons.mp succeeded
    obtain ⟨entered, written, _⟩ := h.returned_ok pc
    rw [sentBy, List.filterMap_cons_some entered, List.filter_cons_of_pos (by simpa using written),
      List.map_cons, List.map_cons, ← ih later, sentBy]

theorem Sound.out_commands (h : Sound log s) (bound : s.bridge.split.issued.length < 2 ^ 32 - 1)
    {t : ThreadId} {w : Worker}
    (out : OutTrace s.bridge w (history t log) (callsOf t log)) :
    ∃ blocks, blocks <+: blocksRead (history t log) ∧
      (blocksRead (history t log)).length ≤ blocks.length + 1 ∧
      (commandsOf t log s).map Prod.snd =
        blocks.map fun block => .submit (w.outRequest block).args := by
  obtain ⟨done, ⟨rest, calls⟩, few, succeeded⟩ := out.succeeded
  have first := h.sentBy_succeeded succeeded
  have last : sentBy s.bridge rest <+: rest.map fun c =>
      .submit (s.bridge.calls c).request.args := by
    have count := out.requests.length_le
    rw [← calls, List.length_map, List.length_map, List.length_append] at count
    match rest with
    | [] => exact List.nil_prefix
    | [c] => exact sentBy_singleton_prefix s.bridge c
    | _ :: _ :: _ =>
      simp only [List.length_cons] at count
      omega
  have commands : (commandsOf t log s).map Prod.snd = sentBy s.bridge done ++
      sentBy s.bridge rest := by
    rw [h.commandsOf_eq bound, ← sentBy, ← sentBy_append, calls]
  have onWire : (commandsOf t log s).map Prod.snd <+:
      ((callsOf t log).map fun c => (s.bridge.calls c).request).map
        fun request => Command.submit request.args := by
    rw [commands, first, ← calls, List.map_map, List.map_append]
    exact (List.prefix_append_right_inj _).mpr last
  obtain ⟨blocks, isPrefix, same⟩ := List.prefix_map_iff.mp
    (List.map_map ▸
      onWire.trans (out.requests.map fun request : UrbRequest => Command.submit request.args))
  refine ⟨blocks, isPrefix, ?_, same⟩
  have long := congrArg List.length commands
  rw [same, first, List.length_map, List.length_append, List.length_map] at long
  omega

end Sound

/-! ## In order and apart -/

/-- What data thread `t` has carried between its endpoint and the server. -/
structure EndpointData (t : ThreadId) (w : Worker) (log : SystemLog) (s : System) : Prop where
  /-- An IN thread has written the payloads of the first replies to its commands. -/
  written : w.IsIn → ∃ rets, rets <+: repliesTo t log s ∧ (∀ ret ∈ rets, ret.status = 0) ∧
    blocksWritten (history t log) = rets.map (·.data)
  /-- An OUT thread has sent the blocks it has read, up to one, each in a command of its own. -/
  sent : ¬ w.IsIn → (commandsOf t log s).map (·.2.payload) <+: blocksRead (history t log) ∧
    (blocksRead (history t log)).length ≤ (commandsOf t log s).length + 1 ∧
    ∀ p ∈ commandsOf t log s, ∃ args, p.2 = .submit args ∧
      args.ep = (w.desc.bEndpointAddress &&& 0x0f).toUInt32 ∧ args.direction = .out ∧
      args.transferBufferLength.toNat = args.data.length
  /-- Its commands are in the order of its calls, under growing numbers. -/
  inTurn : ((commandsOf t log s).map Prod.fst).Sublist (s.bridge.numbers (callsOf t log))
  ordered : ((commandsOf t log s).map Prod.fst).Pairwise (· < ·)
  /-- These belong to its own calls, which are no other thread's. -/
  own : ∀ p ∈ commandsOf t log s, ∀ c,
    (s.bridge.calls c).seqnum = some p.1 → c ∈ callsOf t log
  apart : ∀ c ∈ callsOf t log, c ∉ mainCalls log ∧ ∀ u, u ≠ t → c ∉ callsOf u log

theorem length_of_mem_blocksRead {es : Trace} {block : List UInt8} (mem : block ∈ blocksRead es) :
    block.length < 2 ^ 32 := by
  obtain ⟨e, _, here⟩ := List.mem_filterMap.mp mem
  split at here
  · split at here
    · exact Option.some.inj here ▸ length_readBlock_lt _ _
    · cases here
  · cases here

/-- For any server, any threads and any interleaving, below the limit of the counter. -/
theorem endpoint_data {build : Build} {input : Input} {output : Output} {busnum devnum : UInt32}
    {log : SystemLog} {s : System}
    (run : Logged perform (imported build input output busnum devnum) log s)
    (bound : s.bridge.split.issued.length < 2 ^ 32 - 1) {t : ThreadId} {w : Worker}
    (spawned : w ∈ workersOf t log) : EndpointData t w log s := by
  have sound := sound_of_run run bound
  obtain ⟨thread, rfl, past⟩ := sound.histories.spawned spawned
  refine ⟨sound.in_replies bound past, fun isOut => ?_, ?_, ?_, fun p mem c number => ?_,
    fun c mem => ?_⟩
  · obtain ⟨blocks, isPrefix, few, commands⟩ := sound.out_commands bound (past.outTrace isOut)
    have count := congrArg List.length commands
    simp only [List.length_map] at count
    refine ⟨?_, by omega, fun p mem => ?_⟩
    · have payloads := congrArg (List.map Command.payload) commands
      simp only [List.map_map] at payloads
      exact payloads ▸ (List.map_id blocks).symm ▸ isPrefix
    · have known : p.2 ∈ (commandsOf t log s).map Prod.snd := List.mem_map_of_mem mem
      rw [commands] at known
      obtain ⟨block, hblock, same⟩ := List.mem_map.mp known
      have length := length_of_mem_blocksRead (isPrefix.subset hblock)
      refine ⟨_, same.symm, rfl, rfl, ?_⟩
      show (UInt32.ofNat block.length).toNat = block.length
      rw [UInt32.toNat_ofNat', Nat.mod_eq_of_lt length]
  · rw [sound.commandsOf_eq bound, ← entries_fst]
    exact List.filter_sublist.map _
  · exact sound.wired.split.ordered.sublist (List.filter_sublist.map _)
  · obtain ⟨d, hd, number'⟩ := List.mem_filterMap.mp (of_decide_eq_true (List.mem_filter.mp mem).2)
    exact sound.inv.own c d p.1 number number' ▸ hd
  · exact ⟨sound.histories.mainApart t c mem, fun u other mem' =>
      other (sound.histories.apart u t c mem' mem)⟩

/-- The interrupt endpoint is configured, and its thread has one report. -/
def oneReport : List Action :=
  readConfig 0 1 configDescriptor ++ configured 1 2 ++ [.thread 0 .submit] ++ runCall 2 ++
    [.bridge (.deliver (answerTo 3 [0xab, 0xcd]).encode)] ++ List.replicate 8 (.bridge .reader) ++
    [.bridge (.call 2 []), .thread 0 .resume, .thread 0 (.ioctl done)]

/-- Configuration 1 of a serial adapter: a bulk IN and a bulk OUT endpoint of 64 bytes. -/
def serialDescriptor : List UInt8 :=
  [9, 2, 32, 0, 1, 1, 0, 0x80, 50] ++ [9, 4, 0, 0, 2, 0xff, 0, 0, 0] ++ [7, 5, 0x81, 2, 64, 0, 0] ++
    [7, 5, 0x02, 2, 64, 0, 0]

/-- The host selects it, and both endpoints get their threads. -/
def serialConfigured : List Action :=
  readConfig 0 1 serialDescriptor ++ [.main (.ioctl (fetchedControl setConfiguration))] ++
    exchange 1 2 [] ++ [.main (.ioctl ⟨1, 0, []⟩), .main (.ioctl ⟨2, 0, []⟩)] ++
    List.replicate 3 (.main (.ioctl done)) ++ [.main .spawn, .main .spawn, .main .next]

/-- The host sends a block while the IN thread waits. Its command is answered first,
the adapter has two bytes, and the host sends another block. -/
def bothDirections : List Action :=
  serialConfigured ++ [.thread 0 .submit] ++ runCall 2 ++
    [.thread 1 (.ioctl ⟨3, 0, [1, 2, 3]⟩), .thread 1 .submit] ++ runCall 3 ++
    [.bridge (.deliver ((answerTo 4 []).encode ++ (answerTo 3 [0xab, 0xcd]).encode))] ++
    List.replicate 16 (.bridge .reader) ++
    [.bridge (.call 3 []), .bridge (.call 2 []), .thread 1 .resume, .thread 0 .resume,
      .thread 0 (.ioctl done), .thread 1 .next, .thread 1 (.ioctl ⟨2, 0, [5, 6]⟩)]

def passedBoth (log : SystemLog) (s : System) : Bool :=
  (workersOf 0 log).any (fun w => decide w.IsIn) &&
    (workersOf 1 log).any (fun w => decide (¬ w.IsIn)) &&
    decide (s.bridge.split.issued.length < 2 ^ 32 - 1 ∧
      blocksWritten (history 0 log) = [[0xab, 0xcd]] ∧
      blocksRead (history 1 log) = [[1, 2, 3], [5, 6]] ∧
      (commandsOf 1 log s).map (·.2.payload) = [[1, 2, 3]])

/-- Each thread has passed on its own blocks. -/
theorem endpoint_data_serial : ∃ (log : SystemLog) (s : System) (w v : Worker), w.IsIn ∧
    ¬ v.IsIn ∧ blocksWritten (history 0 log) = [[0xab, 0xcd]] ∧
      blocksRead (history 1 log) = [[1, 2, 3], [5, 6]] ∧
      (commandsOf 1 log s).map (·.2.payload) = [[1, 2, 3]] ∧
      EndpointData 0 w log s ∧ EndpointData 1 v log s := by
  obtain ⟨log, s, run, found⟩ :=
    Logged.of_record_any perform device bothDirections passedBoth (by decide +kernel)
  simp only [passedBoth, Bool.and_eq_true, decide_eq_true_eq, List.any_eq_true] at found
  obtain ⟨⟨⟨w, spawned, isIn⟩, v, spawned', isOut⟩, bound, written, read, sent⟩ := found
  exact ⟨log, s, w, v, isIn, isOut, written, read, sent, endpoint_data run bound spawned,
    endpoint_data run bound spawned'⟩

end System

end UsbipDevirt
