import UsbipDevirt.Callers
import UsbipDevirt.Completion
import UsbipDevirt.EndpointData

/-!
# What ends the event loop and the data threads

No error is handled: the first ioctl that fails and the first call of `submit`
that returns an error end the loop they happen in, and nothing is performed
after them. The event loop passes the error on. A data thread ends without one,
and also when the device answers with another status than zero.
-/

namespace UsbipDevirt

open Transition Program Program.Prog RawGadgetDevice

/-! ## Failures of the main thread -/

/-- The error with which an operation fails. -/
def failure : Program.Event Reply → Option IoError
  | ⟨.ioctl _, reply⟩ => if reply.ret < 0 then some (lastOsError reply.errno) else none
  | ⟨.submit _, .error e⟩ => some e
  | _ => none

/-- Nothing has failed. -/
def Clean (es : Trace) : Prop := ∀ e ∈ es, failure e = none

theorem clean_iff (es : Trace) : Clean es ↔ IoctlsSucceed es ∧ Delivered es := by
  constructor
  · intro h
    constructor
    · rintro ⟨o, reply⟩ he
      cases o with
      | ioctl call => simpa [failure, IoctlReply.Succeeds] using h _ he
      | _ => trivial
    · rintro ⟨o, reply⟩ he
      cases o with
      | submit request =>
        cases reply with
        | error e => simpa [failure] using h _ he
        | ok resp => trivial
      | _ => trivial
  · rintro ⟨succeed, delivered⟩ ⟨o, reply⟩ he
    cases o with
    | ioctl call =>
      have success : ¬ reply.ret < 0 := succeed _ he
      simp [failure, success]
    | submit request =>
      cases reply with
      | error e => exact (delivered _ he).elim
      | ok resp => rfl
    | spawn worker => rfl
    | join thread => rfl

section Stops

variable {α : Type}

/-- An ioctl followed by `?`. -/
theorem stops_rawIoctl (call : Ioctl) {f : IoctlReply → Routine α}
    (hf : ∀ reply, Stops (failing failure) (f reply)) :
    Stops (failing failure) (rawIoctl call >>= fun result => ofResult result >>= f) := by
  rw [rawIoctl_bind]
  intro reply
  dsimp only
  by_cases failed : reply.ret < 0
  · rw [if_pos failed]
    simp [failing, failure, failed]
  · rw [if_neg failed]
    exact ⟨by simp [failing, failure, failed], fun _ => hf reply⟩

/-- A call of `submit` followed by `?`. -/
theorem stops_submit (request : UrbRequest) {f : RetSubmit → Routine α}
    (hf : ∀ resp, Stops (failing failure) (f resp)) :
    Stops (failing failure) (submit request >>= fun result => ofResult result >>= f) := by
  rw [submit_bind]
  intro reply
  cases reply with
  | error e => simp [failing, failure]
  | ok resp => exact ⟨by simp [failing, failure], fun _ => hf resp⟩

theorem stops_ep0Read (buf : List UInt8) : Stops (failing failure) (ep0Read buf) :=
  stops_rawIoctl _ fun _ => stops_done _

theorem stops_ep0Stall : Stops (failing failure) ep0Stall :=
  stops_rawIoctl _ fun _ => stops_done _

theorem stops_configure : Stops (failing failure) configure :=
  stops_rawIoctl _ fun _ => stops_done _

theorem stops_ep0Write (data : List UInt8) : Stops (failing failure) (ep0Write data) := by
  unfold ep0Write
  split
  · exact stops_done _
  · exact stops_rawIoctl _ fun _ => stops_done _

theorem stops_drawPower (configData : List UInt8) :
    Stops (failing failure) (drawPower configData) := by
  unfold drawPower
  split
  · exact stops_rawIoctl _ fun _ => stops_done _
  · exact stops_done _

theorem stops_enableEndpoints (descs : List UsbEndpointDescriptor) :
    Stops (failing failure) (enableEndpoints descs) := by
  induction descs with
  | nil => exact stops_done _
  | cons desc descs ih =>
    have enabled : Stops (failing failure) (epEnable desc) := stops_rawIoctl _ fun _ => stops_done _
    exact enabled.bind fun _ => ih.bind fun _ => stops_done _

theorem stops_spawnEpThreads (workers : List Worker) :
    Stops (failing failure) (spawnEpThreads workers) := by
  induction workers with
  | nil => exact stops_done _
  | cons worker workers ih =>
    intro thread
    exact ⟨by simp [failing, failure], fun _ => ih.bind fun _ => stops_done _⟩

theorem stops_joinAll (threads : List ThreadId) : Stops (failing failure) (joinAll threads) := by
  induction threads with
  | nil => exact stops_done _
  | cons thread threads ih =>
    intro reply
    exact ⟨by simp [failing, failure], fun _ => ih⟩

theorem stops_activate (configData : List UInt8) :
    Stops (failing failure) (activate configData) := by
  refine (stops_enableEndpoints _).bind fun handles => ?_
  refine (stops_drawPower _).bind fun _ => stops_configure.bind fun _ => ?_
  exact (stops_ep0Read _).bind fun _ => stops_spawnEpThreads _

theorem stops_handleControl (ctrl : UsbCtrlRequest) (s : LoopState) :
    Stops (failing failure) (handleControl ctrl s) := by
  cases h : dispatch ctrl with
  | setAddress =>
    rw [handleControl_of_setAddress h]
    exact (stops_ep0Read _).bind fun _ => stops_done _
  | setConfiguration =>
    rw [handleControl_of_setConfiguration h]
    refine Stops.bind (stops_submit _ fun resp => ?_) fun _ => stops_done _
    split
    · exact stops_ep0Stall.bind fun _ => stops_done _
    · cases s.cachedConfigDesc with
      | none => exact stops_done _
      | some configData => exact stops_activate configData
  | controlIn =>
    rw [handleControl_of_controlIn h]
    refine Stops.bind (stops_submit _ fun resp => ?_) fun _ => stops_done _
    split
    · exact (stops_ep0Write _).bind fun _ => stops_done _
    · exact stops_ep0Stall.bind fun _ => stops_done _
  | controlOutWithData =>
    rw [handleControl_of_outWithData h]
    refine Stops.bind ((stops_ep0Read _).bind fun read => ?_) fun _ => stops_done _
    exact stops_submit _ fun _ => stops_done _
  | controlOutNoData =>
    rw [handleControl_of_outNoData h]
    refine Stops.bind (stops_submit _ fun resp => ?_) fun _ => stops_done _
    split
    · exact (stops_ep0Read _).bind fun _ => stops_done _
    · exact stops_ep0Stall

/-- One iteration performs nothing after a failure and ends with its error. -/
theorem stops_mainLoop (s : LoopState) : Stops (failing failure) (mainLoop s) := by
  refine Stops.bind (stops_rawIoctl _ fun _ => stops_done _) fun event => ?_
  cases event with
  | control ctrl => exact stops_handleControl ctrl s
  | disconnect | reset => exact (stops_joinAll _).bind fun _ => stops_done _
  | connect | suspend | resume | unknown => exact stops_done _

end Stops

/-! ## How an iteration of the event loop ends -/

/-- What makes an iteration end with this error. -/
inductive GaveUp (vars : LoopState) (es : Trace) : IoError → Prop where
  | failed {before : Trace} {last : Program.Event Reply} {e : IoError}
      (trace : es = before ++ [last]) (clean : Clean before) (failed : failure last = some e) :
      GaveUp vars es e
  | tooLarge {ctrl : UsbCtrlRequest} {resp : RetSubmit}
      (event : eventOf es = some (.control ctrl)) (clean : Clean es) (isIn : ctrl.IsIn)
      (reply : resp ∈ replies es) (success : resp.status = 0)
      (large : ep0BufSize < resp.data.length) : GaveUp vars es (ep0WriteTooLarge resp.data.length)
  | unprepared {ctrl : UsbCtrlRequest} (event : eventOf es = some (.control ctrl))
      (clean : Clean es) (unprepared : Unprepared ctrl vars es) :
      GaveUp vars es noCachedDescriptor

theorem length_replies_le (es : Trace) : (replies es).length ≤ (submits es).length := by
  induction es with
  | nil => exact Nat.le_refl _
  | cons e es ih =>
    obtain ⟨o, reply⟩ := e
    cases o with
    | submit request =>
      cases reply with
      | error e => exact Nat.le_succ_of_le ih
      | ok resp => exact Nat.succ_le_succ ih
    | _ => exact ih

/-- A control request has at most one reply. -/
theorem replies_unique {ctrl : UsbCtrlRequest} {s : LoopState} {es : Trace}
    {r : Except IoError LoopState} (run : Runs (handleControl ctrl s) es r)
    (succeed : IoctlsSucceed es) {resp resp' : RetSubmit} (mem : resp ∈ replies es)
    (mem' : resp' ∈ replies es) : resp = resp' := by
  have few : (submits es).length ≤ 1 := by
    have submitted := handleControl_submits run succeed
    split at submitted
    · simp [submitted]
    · obtain ⟨data, length, one⟩ := submitted
      simp [one]
  have bound := length_replies_le es
  cases hreplies : replies es with
  | nil => simp [hreplies] at mem
  | cons first rest =>
    have empty : rest = [] := by
      rw [hreplies, List.length_cons] at bound
      exact List.eq_nil_of_length_eq_zero (by omega)
    rw [hreplies, empty, List.mem_singleton] at mem mem'
    exact mem.trans mem'.symm

/-- Without a failure, a request is given up only for one of the two reasons. -/
theorem handleControl_clean {ctrl : UsbCtrlRequest} {s : LoopState} {es : Trace}
    {r : Except IoError LoopState} (run : Runs (handleControl ctrl s) es r) (clean : Clean es) :
    (TooLarge ctrl es → ∀ resp ∈ replies es, r = .error (ep0WriteTooLarge resp.data.length)) ∧
      (Unprepared ctrl s es → r = .error noCachedDescriptor) ∧
      (¬ TooLarge ctrl es → ¬ Unprepared ctrl s es → ∃ s', r = .ok s') := by
  obtain ⟨succeed, delivered⟩ := (clean_iff es).mp clean
  by_cases direct : ctrl.bRequest = usbReqSetAddress ∧ ctrl.IsIn
  · have h := (dispatch_setAddress_iff ctrl).mpr direct.1
    rw [handleControl_of_setAddress h] at run
    have performs := (performs_ep0Read []).bind fun _ => performs_return s
    obtain ⟨_, quiet, continues⟩ := performs es r run succeed
    refine ⟨?_, ?_, fun _ _ => continues⟩
    · rintro ⟨_, resp, mem, _⟩
      simp [quiet] at mem
    · rintro ⟨setConfiguration, _⟩
      simp [h] at setConfiguration
  · have ends := handleControl_ends run succeed delivered direct
    refine ⟨fun large resp mem => ?_, fun h => (ends.unprepared h).2, fun large unprepared =>
      (ends.completed large unprepared).continues⟩
    obtain ⟨_, resp', mem', failed⟩ := ends.tooLarge large
    rwa [replies_unique run succeed mem mem']

theorem runs_joinAll {threads : List ThreadId} {es : Trace} {r : Except IoError Unit}
    (run : Runs (joinAll threads) es r) : r = .ok () := by
  induction threads generalizing es with
  | nil => exact (runs_done_iff.mp run).2
  | cons thread threads ih =>
    obtain ⟨reply, rest, rfl, ended⟩ := runs_op_iff.mp run
    exact ih ended

/-- An iteration in which nothing fails has fetched an event. -/
theorem runs_mainLoop_clean {vars : LoopState} {es : Trace} {r : Except IoError LoopState}
    (run : Runs (mainLoop vars) es r) (clean : Clean es) : ∃ buf reply rest event,
      es = ⟨.ioctl (.eventFetch buf), reply⟩ :: rest ∧ Clean rest ∧
      eventOf es = some event ∧ Runs (handleEvent event vars) rest r := by
  obtain ⟨reply, tail, fetched, _⟩ := runs_op_iff.mp run
  obtain ⟨first, rest, rfl, ⟨failed, _⟩ | ⟨event, hevent, handled⟩⟩ := runs_mainLoop run
  · obtain ⟨rfl, rfl⟩ := List.cons.inj fetched
    have success : ¬ reply.ret < 0 := by
      simpa [failure] using clean _ List.mem_cons_self
    simp [eventOf, IoctlReply.Succeeds, success] at failed
  · obtain ⟨rfl, rfl⟩ := List.cons.inj fetched
    exact ⟨_, reply, rest, event, rfl, fun e he => clean e (List.mem_cons_of_mem _ he),
      (eventOf_cons _ _).trans hevent, handled⟩

/-- An iteration goes on only if nothing in it fails. It ends with an error for
one of three reasons, and with the error of that reason: an operation fails, a
reply is too large, or SET_CONFIGURATION is accepted unprepared. -/
theorem runs_mainLoop_ends {vars : LoopState} {es : Trace} {r : Except IoError LoopState}
    (run : Runs (mainLoop vars) es r) :
    (∀ vars', r = .ok vars' → Clean es) ∧ ∀ e, r = .error e ↔ GaveUp vars es e := by
  rcases (stops_mainLoop vars).of_runs run with clean | ⟨before, last, rfl, clean, stopped⟩
  · have clean : Clean es := fun e he => failing_eq_none.mp (clean e he)
    refine ⟨fun _ _ => clean, fun e => ?_⟩
    obtain ⟨buf, reply, rest, event, rfl, cleanRest, hevent, handled⟩ :=
      runs_mainLoop_clean run clean
    constructor
    · intro failed
      subst failed
      cases event with
      | control ctrl =>
        obtain ⟨large, unprepared, continues⟩ := handleControl_clean handled cleanRest
        by_cases tooLarge : TooLarge ctrl rest
        · obtain ⟨isIn, resp, mem, success, long⟩ := id tooLarge
          cases large tooLarge resp mem
          exact .tooLarge hevent clean isIn mem success long
        · by_cases early : Unprepared ctrl vars rest
          · cases unprepared early
            exact .unprepared hevent clean early
          · obtain ⟨_, ⟨⟩⟩ := continues tooLarge early
      | disconnect | reset =>
        rcases runs_bind_iff.mp handled with ⟨_, joined, _⟩ | ⟨_, _, _, _, _, ended⟩
        · cases runs_joinAll joined
        · cases (runs_done_iff.mp ended).2
      | connect | suspend | resume | unknown => cases (runs_done_iff.mp handled).2
    · intro gaveUp
      cases gaveUp with
      | failed trace _ failed =>
        rw [trace] at clean
        have fine := clean _ (List.mem_append_right _ List.mem_cons_self)
        cases fine.symm.trans failed
      | tooLarge event' _ isIn mem success long =>
        cases hevent.symm.trans event'
        exact (handleControl_clean handled cleanRest).1 ⟨isIn, _, mem, success, long⟩ _ mem
      | unprepared event' _ unprepared =>
        cases hevent.symm.trans event'
        exact (handleControl_clean handled cleanRest).2.1 unprepared
  · obtain ⟨e, failed, rfl⟩ := Option.map_eq_some_iff.mp stopped
    have clean : Clean before := fun e he => failing_eq_none.mp (clean e he)
    have dirty : ¬ Clean (before ++ [last]) := fun all => by
      have fine := all last (List.mem_append_right _ List.mem_cons_self)
      cases fine.symm.trans failed
    refine ⟨nofun, fun e' => ⟨?_, ?_⟩⟩
    · rintro ⟨⟩
      exact .failed rfl clean failed
    · intro gaveUp
      cases gaveUp with
      | failed trace _ failed' =>
        obtain ⟨_, same⟩ := List.append_inj' trace rfl
        obtain rfl := List.singleton_inj.mp same
        cases failed.symm.trans failed'
        rfl
      | tooLarge _ all => exact absurd all dirty
      | unprepared _ all => exact absurd all dirty

theorem iterates_clean {start vars : LoopState} {ess : List Trace}
    (history : Iterates mainLoop start ess vars) : ∀ es ∈ ess, Clean es := by
  induction history with
  | start => simp
  | next _ run ih =>
    intro es mem
    rcases List.mem_append.mp mem with mem | mem
    · exact ih es mem
    · obtain rfl := List.mem_singleton.mp mem
      exact (runs_mainLoop_ends run).1 _ rfl

/-! ## The panic in `submit` -/

/-- The counter of a build that checks it is at its limit: `alloc_seqnum` panics. -/
def Split.Exhausted (s : Split) : Prop := allocSeqnum s.build s.nextSeqnum = none

/-- It stays there. -/
theorem Split.Exhausted.step {s t : Split} {a : Split.Action} (h : s.Exhausted)
    (step : s.step a = some t) : t.Exhausted := by
  cases step_cases step with
  | call _ alloc => cases h.symm.trans alloc
  | writer move => cases move <;> exact h
  | reader move => cases move <;> exact h
  | overflow | collect | takeResponse | deliver | close => exact h

namespace Bridge

/-- No call panics, and no mutex is poisoned, before that. -/
structure PanicsAtLimit (b : Bridge) : Prop where
  mutex : b.poisoned = true → b.split.Exhausted
  calls : ∀ c, (b.calls c).pc = .panicked → b.split.Exhausted

variable {b b' : Bridge} {a : Action}

theorem exhausted_step (h : b.split.Exhausted) (step : b.step a = some b') :
    b'.split.Exhausted := by
  rcases step_split step with same | ⟨_, moved, _⟩
  · rwa [same]
  · exact h.step moved

/-- What poisons the mutex is the panic of `alloc_seqnum`. -/
theorem poisoned_step (step : b.step a = some b') :
    b'.poisoned = b.poisoned ∨ b.split.Exhausted := by
  cases step_cases step with
  | start | drain | deliver | close => exact .inl rfl
  | reader move => cases move <;> exact .inl rfl
  | call move =>
    cases move with
    | panicked _ call writer =>
      obtain ⟨_, ⟨full, _⟩ | ⟨seqnum, _, _, rfl⟩⟩ := Split.call_cases call
      · exact .inr full
      · exact absurd rfl (writer seqnum _)
    | _ => exact .inl rfl

/-- A call panics with `alloc_seqnum` or on a mutex that is poisoned. -/
theorem panicked_step (step : b.step a = some b') {c : CallId}
    (panicked : (b'.calls c).pc = .panicked) :
    (b.calls c).pc = .panicked ∨ b.poisoned = true ∨ b.split.Exhausted := by
  cases step_callChange step c with
  | same calls => exact .inl (calls ▸ panicked)
  | sent _ _ _ calls => exact .inl (by simpa [calls] using panicked)
  | started idle calls => simp [calls] at panicked
  | @moved fates move =>
    cases move with
    | writing => exact .inl panicked
    | poisoned pc free =>
      -- where the mutex is sound, the call gets it
      cases sound : b.poisoned with
      | true => exact .inr (.inl rfl)
      | false =>
        have moved : b.callStep c fates = some _ := step
        simp [callStep, pc, free, sound, setCall] at moved
    | panicked _ call writer =>
      obtain ⟨_, ⟨full, _⟩ | ⟨seqnum, _, _, rfl⟩⟩ := Split.call_cases call
      · exact .inr (.inr full)
      · exact absurd rfl (writer seqnum _)
    | lockWriter | allocated | written | failed | lockPending | insert | unlockWriter | received
    | disconnected => simp [setCall] at panicked

theorem PanicsAtLimit.step (h : b.PanicsAtLimit) (step : b.step a = some b') :
    b'.PanicsAtLimit where
  mutex poisoned := by
    rcases poisoned_step step with same | full
    · exact exhausted_step (h.mutex (same ▸ poisoned)) step
    · exact exhausted_step full step
  calls c panicked := by
    rcases panicked_step step panicked with before | poisoned | full
    · exact exhausted_step (h.calls c before) step
    · exact exhausted_step (h.mutex poisoned) step
    · exact exhausted_step full step

theorem panicsAtLimit_reachable {guard : Bridge → Action → Prop} {split : Split}
    (run : Reaches Bridge.step guard (.new split) b) : b.PanicsAtLimit :=
  run.invariant PanicsAtLimit ⟨by rintro ⟨⟩, by rintro _ ⟨⟩⟩ fun _ _ _ h _ step => h.step step

end Bridge

namespace System

/-- In every state of the whole program, nothing has failed that the main thread
did before it got where it stands. If it has ended with an error, then for a
reason in its current iteration and with the error of that reason. If its call of
`submit` has panicked, which ends the thread as well, then with the counter at its
limit, and it does nothing more. -/
theorem main_thread_ends {guard : System → Action → Prop} {split : Split} {s : System}
    (run : Reaches System.step guard (new (.new split)) s) :
    ∃ ess, Iterates mainLoop ⟨none, []⟩ ess s.main.vars ∧ (∀ es ∈ ess, Clean es) ∧
      After (mainLoop s.main.vars) s.main.trace s.main.rest ∧
      ((∀ e, s.main.rest ≠ .done (.error e)) → Clean s.main.trace) ∧
      (∀ r, s.main.rest = .done r → ∀ e, r = .error e ↔ GaveUp s.main.vars s.main.trace e) ∧
      ∀ c, s.main.call = some c → (s.bridge.calls c).pc = .panicked →
        s.bridge.split.Exhausted ∧ ∀ m, s.mainStep m = none := by
  obtain ⟨ess, history, standing⟩ := reaches_follows run
  refine ⟨ess, history, iterates_clean history, standing, fun goesOn => ?_, fun r ended => ?_,
    fun c call pc => ⟨?_, fun m => ?_⟩⟩
  · cases hrest : s.main.rest with
    | op o k =>
      rw [hrest] at standing
      intro e he
      exact failing_eq_none.mp ((stops_mainLoop _).of_after standing e he)
    | done r =>
      rw [hrest] at standing
      cases r with
      | ok vars => exact (runs_mainLoop_ends standing).1 _ rfl
      | error e => exact absurd hrest (goesOn e)
  · rw [ended] at standing
    exact (runs_mainLoop_ends standing).2
  · exact (Bridge.panicsAtLimit_reachable (reaches_bridge run)).calls c pc
  · obtain ⟨request, k, rest⟩ := (callers_reachable run).submitting .main c call
    rw [Option.eq_none_iff_forall_ne_some]
    intro s' move
    cases mainStep_cases move with
    | submit _ none => cases none.symm.trans call
    | resume _ here returned =>
      obtain rfl := Option.some.inj (here.symm.trans call)
      cases pc.symm.trans returned
    | ioctl here | spawn here | join here | next here => cases rest.symm.trans here

/-- The server closes the connection while the main thread waits for a reply. -/
def abandoned : List Action :=
  [.main (.ioctl (fetchedControl (getConfigDescriptor 25))), .main .submit] ++ runCall 0 ++
    [.bridge (.close readerTerminated)] ++ List.replicate 3 (.bridge .reader) ++
    [.bridge (.drain 1), .bridge .reader, .bridge (.call 0 []), .main .resume]

def endsWith (ctrl : UsbCtrlRequest) (e : IoError) (s : System) : Bool :=
  decide (eventOf s.main.trace = some (.control ctrl)) &&
    match s.main.rest with
    | .done (.error e') => decide (e' = e)
    | _ => false

theorem endsWith_iff {ctrl : UsbCtrlRequest} {e : IoError} {s : System} :
    endsWith ctrl e s = true ↔
      eventOf s.main.trace = some (.control ctrl) ∧ s.main.rest = .done (.error e) := by
  simp only [endsWith, Bool.and_eq_true, decide_eq_true_eq]
  refine and_congr_right fun _ => ?_
  split
  · next rest => simp [rest]
  · next other =>
    constructor
    · rintro ⟨⟩
    · exact fun rest => absurd rest (other e)

/-- The loop ends with what `submit` has returned. -/
theorem main_thread_ends_abandoned : ∃ vars es, eventOf es =
    some (.control (getConfigDescriptor 25)) ∧ GaveUp vars es readerTerminated := by
  obtain ⟨s, reached, found⟩ := Reaches.of_exec_any System.step always_of_anyStep device
    abandoned (endsWith (getConfigDescriptor 25) readerTerminated) (by decide +kernel)
  obtain ⟨event, hrest⟩ := endsWith_iff.mp found
  obtain ⟨_, _, _, _, _, ends, _⟩ := main_thread_ends reached
  exact ⟨s.main.vars, s.main.trace, event, (ends _ hrest _).mp rfl⟩

end System

/-! ## Data threads -/

/-- What a data thread ends with at once after this answer. -/
def quits : Program.Event Reply → Option (Except IoError (Option (List UInt8)))
  | ⟨.ioctl _, reply⟩ => if reply.ret < 0 then some (.ok none) else none
  | ⟨.submit _, .ok resp⟩ => if resp.status ≠ 0 then some (.ok none) else none
  | ⟨.submit _, .error _⟩ => some (.ok none)
  | _ => none

/-- A trace without such an answer. -/
def Quiet (es : Trace) : Prop := ∀ e ∈ es, quits e = none

theorem eq_of_quits {e : Program.Event Reply} {r : Except IoError (Option (List UInt8))}
    (h : quits e = some r) : r = .ok none := by
  obtain ⟨o, reply⟩ := e
  cases o with
  | ioctl call =>
    exact (Option.some.inj (Option.ite_none_right_eq_some.mp h).2).symm
  | submit request =>
    cases reply with
    | error e => exact (Option.some.inj h).symm
    | ok ret =>
      exact (Option.some.inj (Option.ite_none_right_eq_some.mp h).2).symm
  | spawn worker => cases h
  | join thread => cases h

/-- What an OUT thread makes of the answer to its URB. -/
def outAnswered (buf : List UInt8) : Except IoError RetSubmit → Option (List UInt8)
  | .error _ => none
  | .ok ret => if ret.status ≠ 0 then none else some buf

theorem iteration_out_eq {w : Worker} (isOut : ¬ w.IsIn) (buf : List UInt8) :
    w.iteration buf = .op (.ioctl (.epRead (epHeader w.handle buf.length))) fun reply =>
      if reply.ret < 0 then .done (.ok none)
      else .op (.submit (w.request .out
          ((copyRead buf buf.length buf.length reply).2.take
            (copyRead buf buf.length buf.length reply).1)
          (UInt32.ofNat (copyRead buf buf.length buf.length reply).1)))
        fun result =>
          .done (.ok (outAnswered (copyRead buf buf.length buf.length reply).2 result)) := by
  unfold Worker.iteration Worker.outIteration epRead
  rw [if_neg isOut]
  simp only [rawIoctl_bind, op_bind]
  congr 1
  funext reply
  by_cases failed : reply.ret < 0
  · simp only [if_pos failed]
    rfl
  · simp only [if_neg failed, pure_eq, done_ok_bind, Except.map, submit_bind]
    congr 1
    funext result
    cases result with
    | error e => rfl
    | ok ret => by_cases refused : ret.status = 0 <;> simp [outAnswered, refused]

/-- A data thread performs nothing more after such an answer. -/
theorem stops_iteration (w : Worker) (buf : List UInt8) : Stops quits (w.iteration buf) := by
  by_cases isIn : w.IsIn
  · rw [iteration_in isIn]
    intro result
    cases result with
    | error e => simp [quits]
    | ok ret =>
      by_cases failed : ret.status ≠ 0
      · simp [quits, failed]
      · refine ⟨by simp [quits, failed], fun _ => ?_⟩
        dsimp only
        rw [if_neg failed]
        intro reply
        by_cases refused : reply.ret < 0 <;> simp [quits, refused, stops_done]
  · rw [iteration_out_eq isIn]
    intro reply
    dsimp only
    by_cases failed : reply.ret < 0
    · simp [quits, failed]
    · rw [if_neg failed]
      refine ⟨by simp [quits, failed], fun _ result => ?_⟩
      refine ⟨fun r found => ?_, fun _ => stops_done _⟩
      cases result with
      | error e =>
        cases found
        rfl
      | ok ret => simp_all [quits, outAnswered]

/-- Without such an answer it goes on. -/
theorem runs_iteration_quiet {w : Worker} {buf : List UInt8} {es : Trace}
    {r : Except IoError (Option (List UInt8))} (run : Runs (w.iteration buf) es r)
    (quiet : Quiet es) : ∃ buf', r = .ok (some buf') := by
  by_cases isIn : w.IsIn
  · rw [iteration_in isIn] at run
    obtain ⟨result, es, rfl, later⟩ := runs_op_iff.mp run
    have answer := quiet _ List.mem_cons_self
    cases result with
    | error e => cases answer
    | ok ret =>
      have accepted : ret.status = 0 := by simpa [quits] using answer
      simp only [accepted, ne_eq, not_true_eq_false, if_false, runs_op_iff, runs_done_iff] at later
      obtain ⟨reply, _, rfl, rfl, rfl⟩ := later
      have written : ¬ reply.ret < 0 := by
        simpa [quits] using quiet ⟨.ioctl (.epWrite _ ret.data), reply⟩ (by simp)
      exact ⟨buf, by rw [if_neg written]⟩
  · rw [iteration_out_eq isIn] at run
    obtain ⟨reply, es, rfl, read⟩ := runs_op_iff.mp run
    have succeeds : ¬ reply.ret < 0 := by
      simpa [quits] using quiet _ List.mem_cons_self
    rw [if_neg succeeds] at read
    obtain ⟨result, es, rfl, sent⟩ := runs_op_iff.mp read
    obtain ⟨rfl, rfl⟩ := runs_done_iff.mp sent
    have answer := quiet ⟨_, result⟩ (List.mem_cons_of_mem _ List.mem_cons_self)
    cases result with
    | error e => cases answer
    | ok ret =>
      have accepted : ret.status = 0 := by simpa [quits] using answer
      exact ⟨(copyRead buf buf.length buf.length reply).2, by simp [outAnswered, accepted]⟩

/-- A call that has panicked stays as it is. -/
theorem Bridge.step_panicked {b b' : Bridge} {a : Bridge.Action} {c : CallId}
    (step : b.step a = some b') (pc : (b.calls c).pc = .panicked) : b'.calls c = b.calls c := by
  cases step_callChange step c with
  | same calls => exact calls
  | started idle => simp [pc] at idle
  | moved => simp [Bridge.step, callStep, pc] at step
  | sent alive => simp [pc, CallPc.dropped] at alive

namespace System

theorem rounds_quiet {w : Worker} {ess : List Trace} {buf : List UInt8}
    (rounds : Rounds w ess buf) : Quiet ess.flatten := by
  induction rounds with
  | start => simp [Quiet]
  | next _ run ih =>
    rw [List.flatten_append, List.flatten_singleton]
    refine List.forall_mem_append.mpr ⟨ih, ?_⟩
    rcases (stops_iteration _ _).of_runs run with quiet | ⟨_, last, _, _, stopped⟩
    · exact quiet
    · cases eq_of_quits stopped

/-- The history of a thread is quiet up to its last answer, and up to its end
just as long as the thread goes on. -/
theorem Past.quiet {b : Bridge} {thread : DataThread} {es : Trace} {cs : List CallId}
    (h : Past b thread es cs) : (∀ before e, es = before ++ [e] → Quiet before) ∧
      (Quiet es ↔ ∀ r, thread.activity.rest = .done r → ∃ buf, r = .ok (some buf)) := by
  obtain ⟨ess, rounds, standing, rfl⟩ := h.standing
  have earlier := rounds_quiet rounds
  have all (quiet : Quiet thread.activity.trace) : Quiet (ess.flatten ++ thread.activity.trace) :=
    List.forall_mem_append.mpr ⟨earlier, quiet⟩
  have whole (quiet : Quiet (ess.flatten ++ thread.activity.trace)) :
      ∀ before e, ess.flatten ++ thread.activity.trace = before ++ [e] → Quiet before := by
    intro before e same e' mem
    exact quiet e' (same ▸ List.mem_append_left _ mem)
  cases hrest : thread.activity.rest with
  | op o k =>
    rw [hrest] at standing
    have quiet := all ((stops_iteration _ _).of_after standing)
    exact ⟨whole quiet, fun _ => nofun, fun _ => quiet⟩
  | done r =>
    rw [hrest] at standing
    rcases (stops_iteration _ _).of_runs standing with quiet | ⟨before, last, trace, quiet, stopped⟩
    · have goesOn := runs_iteration_quiet standing quiet
      refine ⟨whole (all quiet), fun _ r' same => ?_, fun _ => all quiet⟩
      cases same
      exact goesOn
    · refine ⟨fun before' e same => ?_, fun quiet => ?_, fun goesOn => ?_⟩
      · rw [trace, ← List.append_assoc] at same
        obtain ⟨rfl, _⟩ := List.append_inj' same rfl
        exact List.forall_mem_append.mpr ⟨earlier, quiet⟩
      · cases (quiet last (by simp [trace])).symm.trans stopped
      · obtain ⟨buf, rfl⟩ := goesOn r rfl
        cases eq_of_quits stopped

/-- Its last answer has ended the thread, or the panic of its last call. -/
def Ended (t : ThreadId) (log : SystemLog) (s : System) : Prop :=
  (∃ before e, history t log = before ++ [e] ∧ quits e = some (.ok none)) ∨
    ∃ before c, callsOf t log = before ++ [c] ∧ (s.bridge.calls c).pc = .panicked

theorem Past.ended {b : Bridge} {thread : DataThread} {es : Trace} {cs : List CallId}
    (h : Past b thread es cs) {r : Except IoError (Option (List UInt8))}
    (rest : thread.activity.rest = .done r) (stopped : ∀ buf, r ≠ .ok (some buf)) :
    ∃ before e, es = before ++ [e] ∧ quits e = some (.ok none) := by
  obtain ⟨ess, _, standing, rfl⟩ := h.standing
  rw [rest] at standing
  rcases (stops_iteration _ _).of_runs standing with quiet | ⟨before, last, trace, _, stopped⟩
  · obtain ⟨buf, same⟩ := runs_iteration_quiet standing quiet
    exact absurd same (stopped buf)
  · obtain rfl := eq_of_quits stopped
    exact ⟨ess.flatten ++ before, last, by rw [trace, List.append_assoc], stopped⟩

/-- How a step can end a thread. -/
theorem step_ends {s s' : System} {a : Action} {t : ThreadId} {thread : DataThread}
    (move : s.step a = some s') (live : s.threads t = some thread) (none : s'.threads t = none) :
    s'.bridge = s.bridge ∧
      ((a = .thread t .next ∧ ∃ r, thread.activity.rest = .done r ∧ ∀ buf, r ≠ .ok (some buf)) ∨
      (a = .unwind t ∧
        ∃ c, thread.activity.call = some c ∧ (s.bridge.calls c).pc = .panicked)) := by
  cases a with
  | main m =>
    cases mainStep_cases move with
    | spawn rest =>
      by_cases same : t = s.spawned
      · simp [same] at none
      · simp [same, live] at none
    | _ => cases live.symm.trans none
  | bridge b =>
    obtain ⟨bridge, rfl⟩ := bridge_cases move
    cases live.symm.trans none
  | unwind u =>
    obtain ⟨other, here, unwound⟩ := Option.bind_eq_some_iff.mp move
    by_cases same : t = u
    · subst same
      obtain rfl := Option.some.inj (live.symm.trans here)
      unfold unwind at unwound
      split at unwound
      · next c call =>
        split at unwound
        · next pc =>
          obtain rfl := Option.some.inj unwound
          exact ⟨rfl, .inr ⟨rfl, c, call, pc⟩⟩
        · cases unwound
      · cases unwound
    · obtain rfl := unwind_eq unwound
      cases live.symm.trans ((Function.update_of_ne same ..).symm.trans none)
  | thread u m =>
    obtain ⟨other, here, stepped⟩ := Option.bind_eq_some_iff.mp move
    by_cases same : t = u
    · subst same
      obtain rfl := Option.some.inj (live.symm.trans here)
      cases m with
      | next =>
        unfold threadStep at stepped
        dsimp only at stepped
        split at stepped
        · obtain rfl := Option.some.inj stepped
          simp [setThread] at none
        · next r other rest =>
          obtain rfl := Option.some.inj stepped
          exact ⟨rfl, .inl ⟨rfl, r, rest, other⟩⟩
        · cases stepped
      | ioctl | resume =>
        obtain ⟨_, _, rfl⟩ := Option.map_eq_some_iff.mp stepped
        simp [setThread] at none
      | submit =>
        obtain ⟨_, _, started⟩ := Option.bind_eq_some_iff.mp stepped
        obtain ⟨_, _, rfl⟩ := Option.map_eq_some_iff.mp started
        simp [setThread] at none
      | spawn | join => cases stepped
    · cases live.symm.trans ((threadStep_others stepped same).2.symm.trans none)

/-- A thread is alive when it is spawned. -/
theorem spawned_of_none {s s' : System} {a : Action} {t : ThreadId} (move : s.step a = some s')
    (spawned : t < s'.spawned) (none : s'.threads t = none) : t < s.spawned := by
  cases a with
  | main m =>
    cases mainStep_cases move with
    | spawn rest =>
      have other : t ≠ s.spawned := by
        rintro rfl
        simp at none
      exact Nat.lt_of_le_of_ne (Nat.le_of_lt_succ spawned) other
    | _ => exact spawned
  | bridge b =>
    obtain ⟨bridge, rfl⟩ := bridge_cases move
    exact spawned
  | unwind u =>
    obtain ⟨_, _, unwound⟩ := Option.bind_eq_some_iff.mp move
    obtain rfl := unwind_eq unwound
    exact spawned
  | thread u m =>
    obtain ⟨_, _, stepped⟩ := Option.bind_eq_some_iff.mp move
    cases threadStep_cases stepped <;> exact spawned

/-- A thread that has ended does nothing more. -/
theorem answeredAt_of_none {s s' : System} {a : Action} {t : ThreadId}
    (move : s.step a = some s') (none : s.threads t = none) :
    answeredAt t ⟨s, a, (), s'⟩ = .none ∧ calledAt t ⟨s, a, (), s'⟩ = .none := by
  cases a with
  | thread u m =>
    obtain ⟨thread, live, _⟩ := Option.bind_eq_some_iff.mp move
    have other : u ≠ t := by
      rintro rfl
      cases none.symm.trans live
    cases m <;> simp [answeredAt, calledAt, other]
  | _ => exact ⟨rfl, rfl⟩

theorem Ended.step {log : SystemLog} {s s' : System} {a : Action} {t : ThreadId}
    (h : Ended t log s) (move : s.step a = some s') (none : s.threads t = none) :
    Ended t (log ++ [⟨s, a, (), s'⟩]) s' := by
  obtain ⟨answered, called⟩ := answeredAt_of_none move none
  have histories : history t (log ++ [⟨s, a, (), s'⟩]) = history t log := by
    simp [history, answered]
  have calls : callsOf t (log ++ [⟨s, a, (), s'⟩]) = callsOf t log := by
    simp [callsOf, called]
  unfold Ended
  rw [histories, calls]
  refine h.imp_right ?_
  rintro ⟨before, c, same, pc⟩
  refine ⟨before, c, same, ?_⟩
  rcases step_bridge move with unchanged | ⟨b, moved⟩
  · rwa [unchanged]
  · rwa [Bridge.step_panicked moved pc]

theorem ended_of_run {bridge : Bridge} {log : SystemLog} {s : System}
    (run : Logged perform (new bridge) log s) {t : ThreadId} (spawned : t < s.spawned)
    (none : s.threads t = none) : Ended t log s := by
  have both := run.invariant (fun log s => Histories log s ∧
    ∀ t < s.spawned, s.threads t = .none → Ended t log s) ⟨.initial bridge, nofun⟩ ?_
  · exact both.2 t spawned none
  · rintro log s a _ s' ⟨histories, ih⟩ hop
    obtain ⟨_, move, same⟩ := Option.map_eq_some_iff.mp hop
    cases same
    refine ⟨histories.step move, fun t spawned none => ?_⟩
    cases here : s.threads t with
    | none =>
      exact (ih t (spawned_of_none move spawned none) here).step move here
    | some thread =>
      obtain ⟨past, _⟩ := histories.live here
      obtain ⟨same, ⟨rfl, r, rest, never⟩ | ⟨rfl, c, call, pc⟩⟩ := step_ends move here none
      · obtain ⟨before, e, trace, stopped⟩ := past.ended rest never
        refine .inl ⟨before, e, ?_, stopped⟩
        have answered : answeredAt t ⟨s, .thread t .next, (), s'⟩ = .none := rfl
        simpa [history, answered] using trace
      · obtain ⟨done, calls, _⟩ := past.calls
        refine .inr ⟨done, c, ?_, by rwa [same]⟩
        have called : calledAt t ⟨s, .unwind t, (), s'⟩ = .none := rfl
        simpa [callsOf, called, call] using calls

/-- Where a data thread stands with its answers. -/
structure StopsAtFailure (t : ThreadId) (log : SystemLog) (s : System) : Prop where
  /-- Only the last answer can be one that ends the thread. -/
  before : ∀ es e, history t log = es ++ [e] → Quiet es
  /-- It is such an answer just when the thread is about to end. -/
  live : ∀ thread, s.threads t = some thread → (Quiet (history t log) ↔
    ∀ r, thread.activity.rest = .done r → ∃ buf, r = .ok (some buf))
  /-- A thread ends for no other reason, but for a panic in `submit`. -/
  ended : s.threads t = none → Ended t log s

/-- Every data thread goes on until an ioctl fails, `submit` returns an error or
the device answers with another status than zero, and does nothing after that. -/
theorem data_thread_stops {bridge : Bridge} {log : SystemLog} {s : System}
    (run : Logged perform (new bridge) log s) {t : ThreadId} (spawned : t < s.spawned) :
    StopsAtFailure t log s := by
  have histories := histories_of_run run
  refine ⟨?_, fun thread live => (histories.live live).1.quiet.2, ended_of_run run spawned⟩
  cases histories.told t with
  | unspawned later => exact absurd spawned (Nat.not_lt.mpr later)
  | past _ past => exact past.quiet.1

/-- The endpoint refuses the report. -/
def refusedReport : List Action :=
  oneReport.dropLast ++ [.thread 0 (.ioctl ⟨-1, 19, []⟩), .thread 0 .next]

theorem data_thread_stops_refused : ∃ log s, s.threads 0 = none ∧ StopsAtFailure 0 log s ∧
    Ended 0 log s := by
  obtain ⟨s, reached, found⟩ := Reaches.of_exec_any System.step always_of_anyStep device
    refusedReport (fun s => decide (0 < s.spawned) && (s.threads 0).isNone) (by decide +kernel)
  obtain ⟨log, run⟩ := Logged.of_reaches reached
  simp only [Bool.and_eq_true, decide_eq_true_eq, Option.isNone_iff_eq_none] at found
  obtain ⟨spawned, none⟩ := found
  have stops := data_thread_stops run spawned
  exact ⟨log, s, none, stops, stops.ended none⟩

end System

end UsbipDevirt
