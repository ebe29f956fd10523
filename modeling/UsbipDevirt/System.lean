import UsbipDevirt.EventLoop
import UsbipDevirt.Replies

/-!
# The whole program

The main thread, its data threads and the bridge they share. A thread is its
loop variables, what is left of the current iteration, and the call of `submit`
it is in; the main thread also starts and joins the others. The kernel answers
the ioctls, and the server acts through the steps of the bridge.
-/

namespace UsbipDevirt

open Program Program.Prog

/-! ## Threads -/

/-- A thread between two visits of its loop head. `trace` records what it has
done since the last one. -/
structure Activity (σ α : Type) where
  vars : σ
  trace : Trace
  rest : Routine α
  call : Option CallId

namespace Activity

variable {σ α : Type}

def enter (vars : σ) (body : Routine α) : Activity σ α := ⟨vars, [], body, none⟩

/-- Its operation has been answered. -/
def answered (a : Activity σ α) (e : Program.Event Reply) (rest : Routine α) : Activity σ α :=
  { a with trace := a.trace ++ [e], rest, call := none }

def ioctl (a : Activity σ α) (reply : IoctlReply) : Option (Ioctl × Activity σ α) :=
  match a.rest with
  | .op (.ioctl call) k => some (call, a.answered ⟨.ioctl call, reply⟩ (k reply))
  | _ => none

/-- It enters `submit`. -/
def submit (a : Activity σ α) (c : CallId) : Option (UrbRequest × Activity σ α) :=
  match a.rest, a.call with
  | .op (.submit request) _, none => some (request, { a with call := some c })
  | _, _ => none

/-- Its call of `submit` has returned. -/
def resume (a : Activity σ α) (calls : CallId → Call) : Option (Activity σ α) :=
  match a.rest, a.call with
  | .op (.submit request) k, some c =>
    match (calls c).pc with
    | .returned result => some (a.answered ⟨.submit request, result⟩ (k result))
    | _ => none
  | _, _ => none

def spawn (a : Activity σ α) (t : ThreadId) : Option (Worker × Activity σ α) :=
  match a.rest with
  | .op (.spawn worker) k => some (worker, a.answered ⟨.spawn worker, t⟩ (k t))
  | _ => none

def join (a : Activity σ α) : Option (ThreadId × Activity σ α) :=
  match a.rest with
  | .op (.join t) k => some (t, a.answered ⟨.join t, ()⟩ (k ()))
  | _ => none

/-! What one operation of a thread can be. -/

variable {a b : Activity σ α}

theorem ioctl_cases {reply : IoctlReply} {call : Ioctl} (h : a.ioctl reply = some (call, b)) :
    ∃ k, a.rest = .op (.ioctl call) k ∧ b = a.answered ⟨.ioctl call, reply⟩ (k reply) := by
  unfold ioctl at h
  split at h
  · next rest =>
    cases h
    exact ⟨_, rest, rfl⟩
  · cases h

theorem submit_cases {c : CallId} {request : UrbRequest} (h : a.submit c = some (request, b)) :
    (∃ k, a.rest = .op (.submit request) k) ∧ a.call = none ∧ b = { a with call := some c } := by
  unfold submit at h
  split at h
  · next rest call =>
    cases h
    exact ⟨⟨_, rest⟩, call, rfl⟩
  · cases h

theorem resume_cases {calls : CallId → Call} (h : a.resume calls = some b) :
    ∃ request k c result, a.rest = .op (.submit request) k ∧ a.call = some c ∧
      (calls c).pc = .returned result ∧ b = a.answered ⟨.submit request, result⟩ (k result) := by
  unfold resume at h
  split at h
  · next rest call =>
    split at h
    · next pc => exact ⟨_, _, _, _, rest, call, pc, (Option.some.inj h).symm⟩
    · cases h
  · cases h

theorem spawn_cases {t : ThreadId} {worker : Worker} (h : a.spawn t = some (worker, b)) :
    ∃ k, a.rest = .op (.spawn worker) k ∧ b = a.answered ⟨.spawn worker, t⟩ (k t) := by
  unfold spawn at h
  split at h
  · next rest =>
    cases h
    exact ⟨_, rest, rfl⟩
  · cases h

theorem join_cases {t : ThreadId} (h : a.join = some (t, b)) :
    ∃ k, a.rest = .op (.join t) k ∧ b = a.answered ⟨.join t, ()⟩ (k ()) := by
  unfold join at h
  split at h
  · next rest =>
    cases h
    exact ⟨_, rest, rfl⟩
  · cases h

end Activity

structure DataThread where
  worker : Worker
  activity : Activity (List UInt8) (Option (List UInt8))

/-- At the head of its loop. -/
def DataThread.enter (worker : Worker) (buf : List UInt8) : DataThread :=
  ⟨worker, .enter buf (worker.iteration buf)⟩

/-! ## The system -/

/-- `threads` holds the data threads that have not ended, `spawned` and `called`
the identifiers to be given out next. `enabled` records the endpoints that are
enabled, by address and handle. -/
structure System where
  bridge : Bridge
  main : Activity LoopState LoopState
  threads : ThreadId → Option DataThread
  spawned : ThreadId
  called : CallId
  enabled : List (UInt8 × EpHandle)

/-- What a successful ioctl does to the enabled endpoints. -/
def Ioctl.effect (call : Ioctl) (reply : IoctlReply) (enabled : List (UInt8 × EpHandle)) :
    List (UInt8 × EpHandle) :=
  if reply.Succeeds then
    match call with
    | .epEnable desc => (desc.bEndpointAddress, ⟨reply.ret.toUInt32⟩) :: enabled
    | .epDisable ep => enabled.filter (·.2 ≠ ep)
    | _ => enabled
  else enabled

namespace System

/-- The main thread at its first `event_fetch`. -/
def new (bridge : Bridge) : System where
  bridge := bridge
  main := .enter ⟨none, []⟩ (mainLoop ⟨none, []⟩)
  threads := fun _ => none
  spawned := 0
  called := 0
  enabled := []

/-- The program on a freshly imported device. -/
def imported (build : Build) (input : Input) (output : Output) (busnum devnum : UInt32) : System :=
  new (.imported build input output busnum devnum)

/-- What one thread can do next. -/
inductive Move where
  | ioctl (reply : IoctlReply)
  | submit
  | resume
  | spawn
  | join
  | next

def mainStep (s : System) : Move → Option System
  | .ioctl reply => (s.main.ioctl reply).map fun (call, main) =>
    { s with main, enabled := call.effect reply s.enabled }
  | .submit => (s.main.submit s.called).bind fun (request, main) =>
    (s.bridge.start s.called request).map fun bridge =>
      { s with bridge, main, called := s.called + 1 }
  | .resume => (s.main.resume s.bridge.calls).map fun main => { s with main }
  | .spawn => (s.main.spawn s.spawned).map fun (worker, main) =>
    { s with
      main, spawned := s.spawned + 1,
      threads := Function.update s.threads s.spawned (some (.enter worker worker.initial)) }
  | .join => s.main.join.bind fun (t, main) =>
    if (s.threads t).isNone then some { s with main } else none
  | .next =>
    match s.main.rest with
    | .done (.ok vars) => some { s with main := .enter vars (mainLoop vars) }
    | _ => none

def setThread (s : System) (t : ThreadId) (thread : Option DataThread) : System :=
  { s with threads := Function.update s.threads t thread }

/-- A data thread neither spawns nor joins. -/
def threadStep (s : System) (t : ThreadId) (thread : DataThread) : Move → Option System
  | .ioctl reply => (thread.activity.ioctl reply).map fun (call, activity) =>
    { s.setThread t (some { thread with activity }) with
      enabled := call.effect reply s.enabled }
  | .submit => (thread.activity.submit s.called).bind fun (request, activity) =>
    (s.bridge.start s.called request).map fun bridge =>
      { s.setThread t (some { thread with activity }) with bridge, called := s.called + 1 }
  | .resume => (thread.activity.resume s.bridge.calls).map fun activity =>
    s.setThread t (some { thread with activity })
  | .next =>
    match thread.activity.rest with
    | .done (.ok (some buf)) => some (s.setThread t (some (.enter thread.worker buf)))
    | .done _ => some (s.setThread t none)
    | .op .. => none
  | .spawn | .join => none

/-- A data thread ends with the panic of the call it is in. -/
def unwind (s : System) (t : ThreadId) (thread : DataThread) : Option System :=
  match thread.activity.call with
  | some c =>
    match (s.bridge.calls c).pc with
    | .panicked => some (s.setThread t none)
    | _ => none
  | none => none

inductive Action where
  | main (move : Move)
  | thread (t : ThreadId) (move : Move)
  | unwind (t : ThreadId)
  | bridge (a : Bridge.Action)

def step (s : System) : Action → Option System
  | .main move => s.mainStep move
  | .thread t move => (s.threads t).bind fun thread => s.threadStep t thread move
  | .unwind t => (s.threads t).bind fun thread => s.unwind t thread
  | .bridge (.start ..) => none
  | .bridge a => (s.bridge.step a).map fun bridge => { s with bridge }

/-! ## What one step can do -/

/-- One constructor for each step of the main thread. -/
inductive MainMove (s : System) : Move → System → Prop where
  | ioctl {call k reply} (rest : s.main.rest = .op (.ioctl call) k) :
      MainMove s (.ioctl reply) { s with
        main := s.main.answered ⟨.ioctl call, reply⟩ (k reply),
        enabled := call.effect reply s.enabled }
  | submit {request k bridge} (rest : s.main.rest = .op (.submit request) k)
      (call : s.main.call = none) (start : s.bridge.start s.called request = some bridge) :
      MainMove s .submit { s with
        bridge, main := { s.main with call := some s.called }, called := s.called + 1 }
  | resume {request k c result} (rest : s.main.rest = .op (.submit request) k)
      (call : s.main.call = some c) (pc : (s.bridge.calls c).pc = .returned result) :
      MainMove s .resume { s with main := s.main.answered ⟨.submit request, result⟩ (k result) }
  | spawn {worker k} (rest : s.main.rest = .op (.spawn worker) k) :
      MainMove s .spawn { s with
        main := s.main.answered ⟨.spawn worker, s.spawned⟩ (k s.spawned),
        spawned := s.spawned + 1,
        threads := Function.update s.threads s.spawned (some (.enter worker worker.initial)) }
  | join {t k} (rest : s.main.rest = .op (.join t) k) (ended : s.threads t = none) :
      MainMove s .join { s with main := s.main.answered ⟨.join t, ()⟩ (k ()) }
  | next {vars} (rest : s.main.rest = .done (.ok vars)) :
      MainMove s .next { s with main := .enter vars (mainLoop vars) }

theorem mainStep_cases {s s' : System} {move : Move} (h : s.mainStep move = some s') :
    MainMove s move s' := by
  cases move with
  | ioctl reply =>
    obtain ⟨⟨call, main⟩, hioctl, rfl⟩ := Option.map_eq_some_iff.mp h
    obtain ⟨k, rest, rfl⟩ := Activity.ioctl_cases hioctl
    exact .ioctl rest
  | submit =>
    obtain ⟨⟨request, main⟩, hsubmit, hbind⟩ := Option.bind_eq_some_iff.mp h
    obtain ⟨bridge, start, rfl⟩ := Option.map_eq_some_iff.mp hbind
    obtain ⟨⟨k, rest⟩, call, rfl⟩ := Activity.submit_cases hsubmit
    exact .submit rest call start
  | resume =>
    obtain ⟨main, hresume, rfl⟩ := Option.map_eq_some_iff.mp h
    obtain ⟨request, k, c, result, rest, call, pc, rfl⟩ := Activity.resume_cases hresume
    exact .resume rest call pc
  | spawn =>
    obtain ⟨⟨worker, main⟩, hspawn, rfl⟩ := Option.map_eq_some_iff.mp h
    obtain ⟨k, rest, rfl⟩ := Activity.spawn_cases hspawn
    exact .spawn rest
  | join =>
    obtain ⟨⟨t, main⟩, hjoin, hif⟩ := Option.bind_eq_some_iff.mp h
    obtain ⟨k, rest, rfl⟩ := Activity.join_cases hjoin
    dsimp only at hif
    split at hif
    · next ended => exact Option.some.inj hif ▸ .join rest (Option.isNone_iff_eq_none.mp ended)
    · cases hif
  | next =>
    unfold mainStep at h
    dsimp only at h
    split at h
    · next rest => exact Option.some.inj h ▸ .next rest
    · cases h

/-- One constructor for each step of a data thread. -/
inductive WorkerMove (s : System) (t : ThreadId) (thread : DataThread) : System → Prop where
  | ioctl {call k reply} (rest : thread.activity.rest = .op (.ioctl call) k) :
      WorkerMove s t thread { s.setThread t (some { thread with
          activity := thread.activity.answered ⟨.ioctl call, reply⟩ (k reply) }) with
        enabled := call.effect reply s.enabled }
  | submit {request k bridge} (rest : thread.activity.rest = .op (.submit request) k)
      (call : thread.activity.call = none)
      (start : s.bridge.start s.called request = some bridge) :
      WorkerMove s t thread { s.setThread t (some { thread with
          activity := { thread.activity with call := some s.called } }) with
        bridge, called := s.called + 1 }
  | resume {request k c result} (rest : thread.activity.rest = .op (.submit request) k)
      (call : thread.activity.call = some c) (pc : (s.bridge.calls c).pc = .returned result) :
      WorkerMove s t thread (s.setThread t (some { thread with
        activity := thread.activity.answered ⟨.submit request, result⟩ (k result) }))
  | next {buf} (rest : thread.activity.rest = .done (.ok (some buf))) :
      WorkerMove s t thread (s.setThread t (some (.enter thread.worker buf)))
  | exit {result} (rest : thread.activity.rest = .done result) :
      WorkerMove s t thread (s.setThread t none)
  | unwind {c} (call : thread.activity.call = some c)
      (pc : (s.bridge.calls c).pc = .panicked) :
      WorkerMove s t thread (s.setThread t none)

theorem threadStep_cases {s s' : System} {t : ThreadId} {thread : DataThread} {move : Move}
    (h : s.threadStep t thread move = some s') : WorkerMove s t thread s' := by
  cases move with
  | ioctl reply =>
    obtain ⟨⟨call, activity⟩, hioctl, rfl⟩ := Option.map_eq_some_iff.mp h
    obtain ⟨k, rest, rfl⟩ := Activity.ioctl_cases hioctl
    exact .ioctl rest
  | submit =>
    obtain ⟨⟨request, activity⟩, hsubmit, hbind⟩ := Option.bind_eq_some_iff.mp h
    obtain ⟨bridge, start, rfl⟩ := Option.map_eq_some_iff.mp hbind
    obtain ⟨⟨k, rest⟩, call, rfl⟩ := Activity.submit_cases hsubmit
    exact .submit rest call start
  | resume =>
    obtain ⟨activity, hresume, rfl⟩ := Option.map_eq_some_iff.mp h
    obtain ⟨request, k, c, result, rest, call, pc, rfl⟩ := Activity.resume_cases hresume
    exact .resume rest call pc
  | next =>
    unfold threadStep at h
    dsimp only at h
    split at h
    · next rest => exact Option.some.inj h ▸ .next rest
    · next rest => exact Option.some.inj h ▸ .exit rest
    · cases h
  | spawn => cases h
  | join => cases h

theorem unwind_cases {s s' : System} {t : ThreadId} {thread : DataThread}
    (h : s.unwind t thread = some s') : WorkerMove s t thread s' := by
  unfold unwind at h
  split at h
  · next call =>
    split at h
    · next pc => exact Option.some.inj h ▸ .unwind call pc
    · cases h
  · cases h

/-- One constructor for each party. -/
inductive SystemMove (s : System) : Action → System → Prop where
  | main {move s'} (step : MainMove s move s') : SystemMove s (.main move) s'
  | thread {a t thread s'} (live : s.threads t = some thread) (step : WorkerMove s t thread s') :
      SystemMove s a s'
  | bridge {a bridge} (step : s.bridge.step a = some bridge)
      (inside : ∀ c request, a ≠ .start c request) :
      SystemMove s (.bridge a) { s with bridge }

theorem step_cases {s s' : System} {a : Action} (h : s.step a = some s') : SystemMove s a s' := by
  cases a with
  | main move => exact .main (mainStep_cases h)
  | thread t move =>
    obtain ⟨thread, live, step⟩ := Option.bind_eq_some_iff.mp h
    exact .thread live (threadStep_cases step)
  | unwind t =>
    obtain ⟨thread, live, step⟩ := Option.bind_eq_some_iff.mp h
    exact .thread live (unwind_cases step)
  | bridge a =>
    cases a with
    | start c request => cases h
    | _ =>
      obtain ⟨bridge, step, rfl⟩ := Option.map_eq_some_iff.mp h
      exact .bridge step nofun

/-! ## The bridge inside -/

theorem step_bridge {s s' : System} {a : Action} (h : s.step a = some s') :
    s'.bridge = s.bridge ∨ ∃ b, s.bridge.step b = some s'.bridge := by
  cases step_cases h with
  | main step =>
    cases step with
    | submit rest call start => exact .inr ⟨.start _ _, start⟩
    | _ => exact .inl rfl
  | thread live step =>
    cases step with
    | submit rest call start => exact .inr ⟨.start _ _, start⟩
    | _ => exact .inl rfl
  | bridge step => exact .inr ⟨_, step⟩

open Transition

/-- A run of the program is a run of the bridge. -/
theorem reaches_bridge {guard : System → Action → Prop} {s₀ s : System}
    (run : Reaches System.step guard s₀ s) : Reaches Bridge.step always s₀.bridge s.bridge := by
  refine run.simulate System.bridge fun s a s' _ step => ?_
  rcases step_bridge step with same | ⟨b, hstep⟩
  · exact .inl same
  · exact .inr ⟨b, trivial, hstep⟩

/-! ## The main thread inside -/

/-- The main thread has gone through the iterations of its loop and stands
inside the current one. -/
def Follows (s : System) : Prop := ∃ ess, Iterates mainLoop ⟨none, []⟩ ess s.main.vars ∧
  After (mainLoop s.main.vars) s.main.trace s.main.rest

theorem reaches_follows {guard : System → Action → Prop} {bridge : Bridge} {s : System}
    (run : Reaches System.step guard (new bridge) s) : s.Follows := by
  refine run.invariant Follows ⟨[], .start, .nil⟩ fun s a s' => ?_
  rintro ⟨ess, history, standing⟩ _ step
  cases step_cases step with
  | main move =>
    cases move with
    | submit => exact ⟨ess, history, standing⟩
    | next rest => exact ⟨_, .next history (rest ▸ standing), .nil⟩
    | ioctl rest | resume rest | spawn rest | join rest =>
      rw [rest] at standing
      exact ⟨ess, history, standing.snoc⟩
  | thread live move => cases move <;> exact ⟨ess, history, standing⟩
  | bridge => exact ⟨ess, history, standing⟩

/-! ## A device with one endpoint -/

/-- The program on the device of the bridge's examples. -/
def device : System := new Bridge.device

/-- `event_fetch` returns a control request. -/
def fetchedControl (ctrl : UsbCtrlRequest) : IoctlReply :=
  ⟨0, 0, Bytes.u32le.put 2 ++ Bytes.u32le.put 8 ++ UsbCtrlRequest.format.put ctrl⟩

/-- `event_fetch` returns Reset. -/
def fetchedReset : IoctlReply := ⟨0, 0, Bytes.u32le.put 5⟩

/-- An ioctl that succeeds without data. -/
def done : IoctlReply := ⟨0, 0, []⟩

def getConfigDescriptor (wLength : UInt16) : UsbCtrlRequest := ⟨0x80, 0x06, 0x0200, 0, wLength⟩

def setConfiguration : UsbCtrlRequest := ⟨0x00, 0x09, 1, 0, 0⟩

/-- Configuration 1: one interface with an interrupt IN endpoint of 8 bytes. -/
def configDescriptor : List UInt8 :=
  [9, 2, 25, 0, 1, 1, 0, 0x80, 50] ++ [9, 4, 0, 0, 1, 3, 0, 0, 0] ++ [7, 5, 0x81, 3, 8, 0, 10]

/-- The server's answer to the request with this number. -/
def answerTo (seqnum : UInt32) (data : List UInt8) : Message :=
  .submit { Bridge.firstHeader with seqnum, actualLength := UInt32.ofNat data.length } data

/-- A call runs on to `rx.recv()`. -/
def runCall (c : CallId) : List Action := List.replicate 9 (.bridge (.call c []))

/-- A request of the main thread with its reply. -/
def exchange (c : CallId) (seqnum : UInt32) (data : List UInt8) : List Action :=
  [.main .submit] ++ runCall c ++ [.bridge (.deliver (answerTo seqnum data).encode)] ++
    List.replicate 8 (.bridge .reader) ++ [.bridge (.call c []), .main .resume]

/-- The host reads the configuration descriptor, or a part of it. -/
def readConfig (c : CallId) (seqnum : UInt32) (data : List UInt8) : List Action :=
  [.main (.ioctl (fetchedControl (getConfigDescriptor (UInt16.ofNat data.length))))] ++
    exchange c seqnum data ++ [.main (.ioctl done), .main .next]

/-- The host selects the configuration, which is accepted. -/
def configured (c : CallId) (seqnum : UInt32) : List Action :=
  [.main (.ioctl (fetchedControl setConfiguration))] ++ exchange c seqnum [] ++
    List.replicate 4 (.main (.ioctl done)) ++ [.main .spawn, .main .next]

end System

end UsbipDevirt
