import UsbipDevirt.System

/-!
# Joining the data threads

Reset and Disconnect wait for every data thread to end, and a data thread may
wait in `submit` for as long as the server likes: the bridge has no use of
CMD_UNLINK. What ends such a wait is the reply, or the end of the reader thread.
-/

namespace UsbipDevirt

open Transition

namespace Bridge

/-- What a call in `recv` may have become. -/
structure RecvMove (call call' : Call) : Prop where
  seqnum : call'.seqnum = call.seqnum
  wrote : call'.wrote = call.wrote
  pc : (call'.pc = .recv ∧ (call'.channel = [] → call.channel = [])) ∨
    ∃ result, call'.pc = .returned result

/-- A call that has given its sender away keeps its number, and only taking a
result brings it out of `recv`. -/
theorem step_recv {b b' : Bridge} {a : Action} {c : CallId} (step : b.step a = some b')
    (pc : (b.calls c).pc = .recv) : RecvMove (b.calls c) (b'.calls c) := by
  cases step_callChange step c with
  | same calls =>
    rw [calls]
    exact ⟨rfl, rfl, .inl ⟨pc, id⟩⟩
  | started idle => simp [pc] at idle
  | moved move =>
    cases move with
    | received | disconnected =>
      exact ⟨by simp [setCall], by simp [setCall], .inr (by simp [setCall])⟩
    | poisoned hd | lockWriter hd | allocated hd | panicked hd | writing hd | written hd
    | failed hd | lockPending hd | insert hd | unlockWriter hd => simp [pc] at hd
  | sent alive empty source calls =>
    rw [calls]
    exact ⟨rfl, rfl, .inl ⟨pc, fun nothing => by simp at nothing⟩⟩

/-- A call that has returned stays as it is. -/
theorem step_returned {b b' : Bridge} {a : Action} {c : CallId} {result : Except IoError RetSubmit}
    (step : b.step a = some b') (pc : (b.calls c).pc = .returned result) :
    b'.calls c = b.calls c := by
  cases step_callChange step c with
  | same calls => exact calls
  | started idle => simp [pc] at idle
  | moved => simp [Bridge.step, callStep, pc] at step
  | sent alive => simp [pc, CallPc.dropped] at alive

/-- The only commands ever sent are CMD_SUBMITs. -/
theorem issued_submits {guard : Bridge → Action → Prop} {start b : Bridge}
    (run : Reaches Bridge.step guard start b) (none : start.split.issued = []) (target : UInt32) :
    Command.unlink target ∉ b.split.issued := by
  refine run.invariant (fun b => .unlink target ∉ b.split.issued) (by simp [none]) ?_
  intro b a b' before _ step
  rcases step_issued step with same | ⟨c, _, hissued⟩
  · rwa [same]
  · rw [hissued, List.mem_append, not_or]
    exact ⟨before, by simp⟩

/-- The answer of call `c`, whose number is `k`, is in its channel or taken. -/
def Answered (b : Bridge) (c : CallId) (k : UInt32) : Prop :=
  ∃ message, ((b.calls c).channel = [message] ∨ (b.calls c).pc = .returned message) ∧
    b.Owed k message

end Bridge

namespace System

/-- Data thread `t` is in its call `c` of `submit`. -/
def Submits (s : System) (t : ThreadId) (c : CallId) : Prop :=
  ∃ thread, s.threads t = some thread ∧ thread.activity.call = some c ∧
    ∃ request rest, thread.activity.rest = .op (.submit request) rest

/-- The main thread is in `join` for data thread `t`. -/
def Joins (s : System) (t : ThreadId) : Prop := ∃ rest, s.main.rest = .op (.join t) rest

/-- The main thread joins data thread `t`, which is in its call `c` of `submit`
and waits there for the answer to the URB with number `k`. -/
structure JoinWaits (s : System) (t : ThreadId) (c : CallId) (k : UInt32) : Prop where
  joins : s.Joins t
  submits : s.Submits t c
  recv : (s.bridge.calls c).pc = .recv
  empty : (s.bridge.calls c).channel = []
  seqnum : (s.bridge.calls c).seqnum = some k

/-- Neither of the two threads can move. -/
theorem JoinWaits.stuck {s s' : System} {a : Action} {t : ThreadId} {c : CallId} {k : UInt32}
    (h : s.JoinWaits t c k) (step : s.step a = some s') : s'.Joins t ∧ s'.Submits t c := by
  obtain ⟨⟨rest, joins⟩, submits, recv, _, _⟩ := h
  obtain ⟨thread, live, call, request, k', rest'⟩ := id submits
  cases step_cases step with
  | main step =>
    cases step with
    | join hrest ended =>
      have same := joins.symm.trans hrest
      simp only [Program.Prog.op.injEq, Op.join.injEq] at same
      simp [← same.1, live] at ended
    | ioctl hrest | submit hrest | resume hrest | spawn hrest | next hrest =>
      simp [joins] at hrest
  | @thread _ u other _ hu step =>
    refine ⟨?_, ?_⟩
    · cases step <;> exact ⟨rest, joins⟩
    · by_cases htu : t = u
      · subst htu
        obtain rfl := Option.some.inj (live.symm.trans hu)
        cases step with
        | submit _ hcall => simp [call] at hcall
        | resume _ hcall pc | unwind hcall pc =>
          obtain rfl := Option.some.inj (call.symm.trans hcall)
          simp [recv] at pc
        | ioctl hrest | next hrest | exit hrest => simp [rest'] at hrest
      · have keep : ∀ thread', Function.update s.threads u thread' t = s.threads t :=
          fun thread' => Function.update_of_ne htu ..
        cases step <;> exact ⟨thread, (keep _).trans live, call, request, k', rest'⟩
  | bridge step => exact ⟨⟨rest, joins⟩, submits⟩

/-- A data thread that Reset or Disconnect waits for does not itself wait for an
URB that nobody has cancelled. -/
def NeverWaitsAlone (s : System) : Prop :=
  ∀ t c k, (eventOf s.main.trace = some .reset ∨ eventOf s.main.trace = some .disconnect) →
    s.JoinWaits t c k → Command.unlink k ∈ s.bridge.split.issued

/-- Where call `c` stands in the states after the two threads have come to wait for it. -/
structure Following (s : System) (t : ThreadId) (c : CallId) (k : UInt32) : Prop where
  seqnum : (s.bridge.calls c).seqnum = some k
  wrote : (s.bridge.calls c).wrote = true
  pc : ((s.bridge.calls c).pc = .recv ∧
      ((s.bridge.calls c).channel = [] → s.Joins t ∧ s.Submits t c)) ∨
    ∃ result, (s.bridge.calls c).pc = .returned result

theorem Following.step {s s' : System} {a : Action} {t : ThreadId} {c : CallId} {k : UInt32}
    (h : s.Following t c k) (step : s.step a = some s') : s'.Following t c k := by
  rcases step_bridge step with same | ⟨b, move⟩
  · obtain ⟨seqnum, wrote, ⟨pc, empty⟩ | returned⟩ := h
    · refine ⟨same ▸ seqnum, same ▸ wrote, .inl ⟨same ▸ pc, fun hempty => ?_⟩⟩
      obtain ⟨joins, submits⟩ := empty (same ▸ hempty)
      exact JoinWaits.stuck ⟨joins, submits, pc, same ▸ hempty, seqnum⟩ step
    · exact ⟨same ▸ seqnum, same ▸ wrote, .inr (same ▸ returned)⟩
  · obtain ⟨seqnum, wrote, ⟨pc, empty⟩ | ⟨result, pc⟩⟩ := h
    · have next := Bridge.step_recv move pc
      refine ⟨next.seqnum.trans seqnum, next.wrote.trans wrote,
        next.pc.imp_left fun ⟨hpc, keep⟩ => ?_⟩
      refine ⟨hpc, fun hempty => ?_⟩
      obtain ⟨joins, submits⟩ := empty (keep hempty)
      exact JoinWaits.stuck ⟨joins, submits, pc, keep hempty, seqnum⟩ step
    · rw [← Bridge.step_returned move pc] at seqnum wrote pc
      exact ⟨seqnum, wrote, .inr ⟨result, pc⟩⟩

theorem Following.joinWaits_or {s : System} {t : ThreadId} {c : CallId} {k : UInt32}
    (h : s.Following t c k) (inv : s.bridge.Inv) : s.JoinWaits t c k ∨ s.bridge.Answered c k := by
  obtain ⟨seqnum, wrote, ⟨pc, empty⟩ | ⟨result, pc⟩⟩ := h
  · obtain ⟨k', hk, _, ⟨unused, _⟩ | ⟨message, channel, _, owed⟩⟩ :=
      (inv.progress c).of_waiting (.inr pc)
    · obtain ⟨joins, submits⟩ := empty unused.1
      exact .inl ⟨joins, submits, pc, unused.1, seqnum⟩
    · obtain rfl := Option.some.inj (seqnum.symm.trans hk)
      exact .inr ⟨message, .inl channel, owed⟩
  · cases inv.progress c with
    | returned pc' hk _ _ _ owed =>
      obtain rfl := Option.some.inj (seqnum.symm.trans hk)
      exact .inr ⟨_, .inr pc', owed⟩
    | unnumbered _ _ _ nothing | sending _ _ nothing | failed _ _ nothing => simp [wrote] at nothing
    | waiting pc' | answered pc' | registering pc' =>
      simp [pc, CallPc.waiting] at pc'

theorem issued_length_le_of_run {guard : System → Action → Prop} {s s' : System}
    (run : Reaches System.step guard s s') :
    s.bridge.split.issued.length ≤ s'.bridge.split.issued.length := by
  refine run.invariant (fun s' => s.bridge.split.issued.length ≤ s'.bridge.split.issued.length)
    (Nat.le_refl _) ?_
  intro b a b' before _ step
  rcases step_bridge step with same | ⟨_, move⟩
  · rwa [same]
  · exact before.trans (Bridge.issued_length_le move)

/-- No URB is ever cancelled, and the wait for a data thread that waits for its
URB lasts until the call has its answer: the RET_SUBMIT with its number, handled
by the reader thread, or an error after the end of the reader thread. -/
theorem join_waits {build : Build} {input : Input} {output : Output} {busnum devnum : UInt32}
    {s s' : System} {t : ThreadId} {c : CallId} {k : UInt32}
    (run : Reaches System.step always (imported build input output busnum devnum) s)
    (waits : s.JoinWaits t c k) (later : Reaches System.step always s s')
    (bound : s'.bridge.split.issued.length < 2 ^ 32 - 1) :
    (∀ target, Command.unlink target ∉ s'.bridge.split.issued) ∧
      (s'.JoinWaits t c k ∨ s'.bridge.Answered c k) := by
  have inv : s.bridge.Inv :=
    .of_run (reaches_bridge run) (Nat.lt_of_le_of_lt (issued_length_le_of_run later) bound)
  have whole := reaches_bridge (run.trans later)
  refine ⟨fun target => Bridge.issued_submits whole rfl target, ?_⟩
  obtain ⟨k', hk, wrote, _⟩ := (inv.progress c).of_waiting (.inr waits.recv)
  have start : s.Following t c k :=
    ⟨waits.seqnum, wrote, .inl ⟨waits.recv, fun _ => ⟨waits.joins, waits.submits⟩⟩⟩
  have following : s'.Following t c k :=
    later.invariant (fun s => s.Following t c k) start fun _ _ _ h _ step => h.step step
  exact following.joinWaits_or (.of_run whole bound)

/-- The data thread of the interrupt endpoint asks for the next report, and the
host resets the bus. -/
def resetWhileIdle : List Action :=
  readConfig 0 1 configDescriptor ++ configured 1 2 ++ [.thread 0 .submit] ++ runCall 2 ++
    [.main (.ioctl fetchedReset)]

def waitsForIdle (s : System) : Bool :=
  (match s.main.rest with
    | .op (.join 0) _ => true
    | _ => false) &&
  (match (s.threads 0).map DataThread.activity with
    | some ⟨_, _, .op (.submit _) _, some 2⟩ => true
    | _ => false) &&
  (match (s.bridge.calls 2).pc with
    | .recv => true
    | _ => false) &&
  decide ((s.bridge.calls 2).channel = [] ∧ (s.bridge.calls 2).seqnum = some 3 ∧
    eventOf s.main.trace = some .reset ∧ s.bridge.split.issued.length = 3)

theorem joinWaits_of {s : System} (h : waitsForIdle s = true) : s.JoinWaits 0 2 3 := by
  simp only [waitsForIdle, Bool.and_eq_true, decide_eq_true_iff] at h
  obtain ⟨⟨⟨joins, submits⟩, recv⟩, empty, seqnum, -⟩ := h
  refine ⟨?_, ?_, ?_, empty, seqnum⟩
  · split at joins
    · next hrest => exact ⟨_, hrest⟩
    · cases joins
  · split at submits
    · next hthread =>
      obtain ⟨thread, live, hactivity⟩ := Option.map_eq_some_iff.mp hthread
      exact ⟨thread, live, by simp [hactivity]⟩
    · cases submits
  · split at recv
    · next hpc => exact hpc
    · cases recv

/-- The device is idle, and the event loop is stopped by the first Reset. -/
theorem reset_waits_for_device :
    ∃ s, Reaches System.step always device s ∧ s.bridge.split.issued.length < 2 ^ 32 - 1 ∧
      ¬ s.NeverWaitsAlone := by
  obtain ⟨s, run, found⟩ := Reaches.of_exec_any System.step always_of_anyStep device
    resetWhileIdle waitsForIdle (by decide +kernel)
  have waits := joinWaits_of found
  simp only [waitsForIdle, Bool.and_eq_true, decide_eq_true_iff] at found
  obtain ⟨-, -, -, reset, length⟩ := found
  refine ⟨s, run, by omega, fun never => ?_⟩
  exact Bridge.issued_submits (reaches_bridge run) rfl 3 (never 0 2 3 (.inl reset) waits)

/-- The reader thread hands over the answer to the idle URB. -/
def reportArrives : List Action :=
  .bridge (.deliver (answerTo 3 [0, 0, 4]).encode) :: List.replicate 8 (.bridge .reader)

def hasReport (s : System) : Bool :=
  decide ((s.bridge.calls 2).channel.length = 1 ∧ s.bridge.split.issued.length < 2 ^ 32 - 1)

/-- The same run, and the reply that ends the wait at last. -/
theorem join_waits_for_report : ∃ s s' : System, s.JoinWaits 0 2 3 ∧
    (s'.bridge.calls 2).channel.length = 1 ∧
    (∀ target, Command.unlink target ∉ s'.bridge.split.issued) ∧
      (s'.JoinWaits 0 2 3 ∨ s'.bridge.Answered 2 3) := by
  obtain ⟨s, run, found⟩ := Reaches.of_exec_any System.step always_of_anyStep device
    resetWhileIdle
    (fun s => waitsForIdle s && (exec (restrict anyStep System.step) s reportArrives).any hasReport)
    (by decide +kernel)
  simp only [Bool.and_eq_true, Option.any_eq_true, hasReport, decide_eq_true_iff] at found
  obtain ⟨hwaits, s', hlater, channel, bound⟩ := found
  have waits := joinWaits_of hwaits
  have later : Reaches System.step always s s' := .of_exec always_of_anyStep hlater
  exact ⟨s, s', waits, channel, join_waits run waits later bound⟩

end System

end UsbipDevirt
