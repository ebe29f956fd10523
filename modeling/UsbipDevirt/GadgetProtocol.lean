import UsbipDevirt.Failures

/-!
# The protocol of the raw-gadget device

The kernel side of the bridge has a state of its own: the control request that
waits for its completion, and the endpoints that are enabled, with their
handles. The event loop and the data threads share one file descriptor and never
ask it for anything out of turn, whatever the ioctls return: the next event is
fetched when the last request is completed, endpoint 0 is used once for each
request and in its direction, and a data thread only uses a handle that
`ep_enable` has returned for its endpoint. The exception are requests that the
event loop takes for others by their number.
-/

namespace UsbipDevirt

open Transition Program Program.Prog RawGadgetDevice

/-! ## The device -/

/-- `endpoints` are those enabled, each with its handle. -/
structure Gadget where
  pending : Option UsbCtrlRequest
  endpoints : List Worker

namespace Gadget

def requestOf : Event → Option UsbCtrlRequest
  | .control ctrl => some ctrl
  | _ => none

/-- What an ioctl does to the device, if it succeeds. -/
def after (g : Gadget) (call : Ioctl) (reply : IoctlReply) : Gadget :=
  if reply.Succeeds then
    match call with
    | .eventFetch buf => { g with pending := requestOf (.ofBuf (overwrite buf reply.written)) }
    | .ep0Write .. | .ep0Read _ | .ep0Stall => { g with pending := none }
    | .epEnable desc => { g with endpoints := ⟨desc, ⟨reply.ret.toUInt32⟩⟩ :: g.endpoints }
    | .epDisable ep => { g with endpoints := g.endpoints.filter fun w => w.handle ≠ ep }
    | .epWrite .. | .epRead _ | .configure | .vbusDraw _ => g
  else g

/-- SET_CONFIGURATION waits. -/
def Selecting (g : Gadget) : Prop := ∃ ctrl, g.pending = some ctrl ∧ ctrl.IsSetConfiguration

/-- The request that waits is not one that the event loop takes for another. -/
def Standard (g : Gadget) : Prop := ∀ ctrl, g.pending = some ctrl → ¬ ctrl.Mistaken

/-- The ioctls that are in turn. `epDisable` is not one of them. -/
inductive Allows (g : Gadget) : Ioctl → Prop where
  | eventFetch {buf} (idle : g.pending = none) : Allows g (.eventFetch buf)
  | ep0Write {ctrl header data} (pending : g.pending = some ctrl) (isIn : ctrl.IsIn)
      (inside : header.length.toNat ≤ data.length) : Allows g (.ep0Write header data)
  | ep0Read {ctrl header} (pending : g.pending = some ctrl) (out : ¬ ctrl.IsIn)
      (inside : header.length.toNat ≤ ep0BufSize) : Allows g (.ep0Read header)
  | ep0Stall {ctrl} (pending : g.pending = some ctrl) : Allows g .ep0Stall
  | epEnable {desc} (selecting : g.Selecting) : Allows g (.epEnable desc)
  | vbusDraw {power} (selecting : g.Selecting) : Allows g (.vbusDraw power)
  | configure (selecting : g.Selecting) : Allows g .configure
  | epWrite {w data} (enabled : w ∈ g.endpoints) (isIn : w.IsIn) :
      Allows g (.epWrite (epHeader w.handle data.length) data)
  | epRead {w} (enabled : w ∈ g.endpoints) (isOut : ¬ w.IsIn) :
      Allows g (.epRead (epHeader w.handle w.maxPacketSize.toNat))

/-- Only `epDisable` disables an endpoint. -/
theorem keeps {g : Gadget} {call : Ioctl} (other : ∀ ep, call ≠ .epDisable ep)
    (reply : IoctlReply) {w : Worker} (enabled : w ∈ g.endpoints) :
    w ∈ (g.after call reply).endpoints := by
  unfold after
  split
  · cases call with
    | epEnable => exact List.mem_cons_of_mem _ enabled
    | epDisable ep => exact absurd rfl (other ep)
    | _ => exact enabled
  · exact enabled

end Gadget

/-! ## The contract of the event loop -/

/-- The data threads change nothing that the event loop relies on. What it asks for
while a mistaken request waits may be out of turn, but disables no endpoint. -/
def protocol : Contract Reply Gadget where
  others g g' := g' = g
  replies _ _ := True
  effect g e := match e with
    | ⟨.ioctl call, reply⟩ => g.after call reply
    | _ => g
  permits g o := (∀ call, o = .ioctl call →
      (g.Standard → g.Allows call) ∧ ∀ ep, call ≠ .epDisable ep) ∧
    ∀ worker, o = .spawn worker → worker ∈ g.endpoints
  others_refl _ := rfl
  others_trans h h' := h'.trans h

section Rules

variable {α β : Type} {post : α → Gadget → Prop} {g : Gadget}

theorem protocol_ok {a : α} (h : post a g) :
    Meets protocol (Leaves post) (.done (.ok a) : Routine α) g := by
  rintro _ rfl
  exact h

/-- An ioctl followed by `?`. -/
theorem protocol_rawIoctl {call : Ioctl} {f : IoctlReply → Routine α}
    (allowed : g.Standard → g.Allows call) (other : ∀ ep, call ≠ .epDisable ep)
    (next : ∀ reply, reply.Succeeds → Meets protocol (Leaves post) (f reply) (g.after call reply)) :
    Meets protocol (Leaves post) (rawIoctl call >>= fun result => ofResult result >>= f) g := by
  rw [rawIoctl_bind]
  rintro _ rfl
  refine ⟨⟨?_, nofun⟩, fun reply _ => ?_⟩
  · rintro _ ⟨⟩
    exact ⟨allowed, other⟩
  · dsimp only
    by_cases failed : reply.ret < 0
    · rw [if_pos failed]
      exact meets_error _
    · rw [if_neg failed]
      exact next reply failed

/-- A call of `submit` followed by `?`. -/
theorem protocol_submit {request : UrbRequest} {f : RetSubmit → Routine α}
    (next : ∀ resp, Meets protocol (Leaves post) (f resp) g) :
    Meets protocol (Leaves post) (submit request >>= fun result => ofResult result >>= f) g := by
  rw [submit_bind]
  rintro _ rfl
  refine ⟨⟨nofun, nofun⟩, fun reply _ => ?_⟩
  cases reply with
  | error e => exact meets_error e
  | ok resp => exact next resp

end Rules

/-- This request waits, and these endpoints are enabled. -/
structure Holding (pending : Option UsbCtrlRequest) (ws : List Worker) (g : Gadget) : Prop where
  pending : g.pending = pending
  enabled : ∀ w ∈ ws, w ∈ g.endpoints

section Handlers

variable {ctrl : UsbCtrlRequest} {pending : Option UsbCtrlRequest} {ws : List Worker} {g : Gadget}

theorem Holding.mono {us : List Worker} (h : Holding pending ws g) (sub : ∀ w ∈ us, w ∈ ws) :
    Holding pending us g := ⟨h.pending, fun w hw => h.enabled w (sub w hw)⟩

/-- An operation on endpoint 0 completes the request. -/
theorem Holding.completed (h : Holding pending ws g) {call : Ioctl} {reply : IoctlReply}
    (succeeds : reply.Succeeds) (ep0 : (Op.ioctl call).ep0 = some call) :
    Holding none ws (g.after call reply) := by
  unfold Gadget.after
  rw [if_pos succeeds]
  cases call <;> first | exact ⟨rfl, h.enabled⟩ | cases ep0

theorem protocol_ep0Read (h : Holding (some ctrl) ws g) (out : ¬ ctrl.Mistaken → ¬ ctrl.IsIn)
    (buf : List UInt8) : Meets protocol (Leaves fun _ => Holding none ws) (ep0Read buf) g := by
  refine protocol_rawIoctl (fun standard => .ep0Read h.pending (out (standard _ h.pending)) ?_)
    nofun fun reply succeeds => ?_
  · exact Nat.le_trans (Nat.mod_le ..) (Nat.min_le_right ..)
  · exact protocol_ok (h.completed succeeds rfl)

theorem protocol_ep0Stall (h : Holding (some ctrl) ws g) :
    Meets protocol (Leaves fun _ => Holding none ws) ep0Stall g :=
  protocol_rawIoctl (fun _ => .ep0Stall h.pending) nofun fun _ succeeds =>
    protocol_ok (h.completed succeeds rfl)

theorem protocol_ep0Write (h : Holding (some ctrl) ws g) (isIn : ctrl.IsIn) (data : List UInt8) :
    Meets protocol (Leaves fun _ => Holding none ws) (ep0Write data) g := by
  unfold ep0Write
  split
  · exact meets_error _
  · refine protocol_rawIoctl (fun _ => .ep0Write h.pending isIn ?_) nofun fun reply succeeds => ?_
    · refine Nat.le_trans (Nat.mod_le ..) ?_
      simp [ep0WriteBuf]
    · exact protocol_ok (h.completed succeeds rfl)

theorem Holding.selecting (h : Holding (some ctrl) ws g)
    (selects : dispatch ctrl = .setConfiguration) (standard : g.Standard) : g.Selecting :=
  ⟨ctrl, h.pending, (dispatch_setConfiguration_of (standard ctrl h.pending)).mp selects⟩

/-- What changes neither the request nor the endpoints. -/
theorem Holding.kept (h : Holding pending ws g) {call : Ioctl} {reply : IoctlReply}
    (same : g.after call reply = g) : Holding pending ws (g.after call reply) := by
  rwa [same]

theorem protocol_configure (h : Holding (some ctrl) ws g)
    (selects : dispatch ctrl = .setConfiguration) :
    Meets protocol (Leaves fun _ => Holding (some ctrl) ws) configure g :=
  protocol_rawIoctl (fun standard => .configure (h.selecting selects standard)) nofun
    fun _ succeeds => protocol_ok (h.kept (if_pos succeeds))

theorem protocol_drawPower (h : Holding (some ctrl) ws g)
    (selects : dispatch ctrl = .setConfiguration) (configData : List UInt8) :
    Meets protocol (Leaves fun _ => Holding (some ctrl) ws) (drawPower configData) g := by
  unfold drawPower
  split
  · exact protocol_rawIoctl (fun standard => .vbusDraw (h.selecting selects standard)) nofun
      fun _ succeeds => protocol_ok (h.kept (if_pos succeeds))
  · exact protocol_ok h

theorem protocol_epEnable (h : Holding (some ctrl) ws g)
    (selects : dispatch ctrl = .setConfiguration) (desc : UsbEndpointDescriptor) :
    Meets protocol (Leaves fun handle => Holding (some ctrl) (⟨desc, handle⟩ :: ws))
      (epEnable desc) g := by
  refine protocol_rawIoctl (fun standard => .epEnable (h.selecting selects standard)) nofun
    fun reply succeeds => protocol_ok ?_
  unfold Gadget.after
  rw [if_pos succeeds]
  refine ⟨h.pending, fun w hw => ?_⟩
  rcases List.mem_cons.mp hw with rfl | hw
  · exact List.mem_cons_self
  · exact List.mem_cons_of_mem _ (h.enabled w hw)

/-- Each handle returned is that of its endpoint. -/
theorem protocol_enables (h : Holding (some ctrl) ws g)
    (selects : dispatch ctrl = .setConfiguration) (descs : List UsbEndpointDescriptor) :
    Meets protocol
      (Leaves fun handles => Holding (some ctrl) (descs.zipWith Worker.mk handles ++ ws))
      (enableEndpoints descs) g := by
  induction descs generalizing ws g with
  | nil => exact protocol_ok h
  | cons desc descs ih =>
    refine Meets.seq (protocol_epEnable h selects desc) fun handle g opened => ?_
    refine Meets.seq (ih opened) fun handles g all => protocol_ok (all.mono fun w hw => ?_)
    simpa [or_left_comm] using hw

theorem protocol_spawns {workers : List Worker} (h : Holding pending ws g)
    (enabled : ∀ w ∈ workers, w ∈ ws) :
    Meets protocol (Leaves fun _ => Holding pending ws) (spawnEpThreads workers) g := by
  induction workers generalizing g with
  | nil => exact protocol_ok h
  | cons worker workers ih =>
    obtain ⟨first, rest⟩ := List.forall_mem_cons.mp enabled
    rw [spawnEpThreads, spawn_bind]
    rintro _ rfl
    refine ⟨⟨nofun, ?_⟩, fun thread _ => ?_⟩
    · rintro _ ⟨⟩
      exact h.enabled worker first
    · exact Meets.seq (ih h rest) fun threads g all => protocol_ok all

theorem protocol_joins (h : Holding pending ws g) (threads : List ThreadId) :
    Meets protocol (Leaves fun _ => Holding pending ws) (joinAll threads) g := by
  induction threads generalizing g with
  | nil => exact protocol_ok h
  | cons thread threads ih =>
    rw [joinAll, join_bind]
    rintro _ rfl
    exact ⟨⟨nofun, nofun⟩, fun _ _ => ih h⟩

theorem protocol_activate (h : Holding (some ctrl) [] g)
    (selects : dispatch ctrl = .setConfiguration) (configData : List UInt8) :
    Meets protocol (Leaves fun _ => Holding none []) (activate configData) g := by
  have out := isOut_of_dispatch (.inl selects)
  refine Meets.seq (protocol_enables h selects _) fun handles g h => ?_
  refine Meets.seq (protocol_drawPower h selects _) fun _ g h => ?_
  refine Meets.seq (protocol_configure h selects) fun _ g h => ?_
  refine Meets.seq (protocol_ep0Read h (fun _ => out) []) fun _ g h => ?_
  exact Meets.weaken (protocol_spawns h fun w hw => List.mem_append_left _ hw)
    fun _ _ h => h.mono (by simp)

/-- Whatever the request, it is completed when its handler returns. -/
theorem protocol_handleControl (h : Holding (some ctrl) [] g) (vars : LoopState) :
    Meets protocol (Leaves fun _ => Holding none []) (handleControl ctrl vars) g := by
  cases found : dispatch ctrl with
  | setAddress =>
    rw [handleControl_of_setAddress found]
    have out (right : ¬ ctrl.Mistaken) : ¬ ctrl.IsIn := by
      have type := ((dispatch_setAddress_of right).mp found).1
      simp [UsbCtrlRequest.IsIn, type]
    exact Meets.seq (protocol_ep0Read h out []) fun _ _ h => protocol_ok h
  | setConfiguration =>
    rw [handleControl_of_setConfiguration found]
    refine Meets.seq (Q := fun _ => Holding none []) (protocol_submit fun resp => ?_)
      fun _ _ h => protocol_ok h
    split
    · exact Meets.seq (protocol_ep0Stall h) fun _ _ h => protocol_ok h
    · cases vars.cachedConfigDesc with
      | none => exact meets_error _
      | some configData => exact protocol_activate h found configData
  | controlIn =>
    rw [handleControl_of_controlIn found]
    refine Meets.seq (Q := fun _ => Holding none []) (protocol_submit fun resp => ?_)
      fun _ _ h => protocol_ok h
    split
    · have written := protocol_ep0Write h (isIn_of_dispatch found) resp.data
      exact Meets.seq written fun _ _ h => protocol_ok h
    · exact Meets.seq (protocol_ep0Stall h) fun _ _ h => protocol_ok h
  | controlOutWithData =>
    rw [handleControl_of_outWithData found]
    have out := isOut_of_dispatch (.inr (.inl found))
    refine Meets.seq (Q := fun _ => Holding none []) ?_ fun _ _ h => protocol_ok h
    refine Meets.seq (protocol_ep0Read h (fun _ => out) _) fun read g h => ?_
    exact protocol_submit fun _ => protocol_ok h
  | controlOutNoData =>
    rw [handleControl_of_outNoData found]
    have out := isOut_of_dispatch (.inr (.inr found))
    refine Meets.seq (Q := fun _ => Holding none []) (protocol_submit fun resp => ?_)
      fun _ _ h => protocol_ok h
    split
    · exact Meets.seq (protocol_ep0Read h (fun _ => out) _) fun _ _ h => protocol_ok h
    · exact protocol_ep0Stall h

theorem protocol_eventFetch (h : Holding none ws g) :
    Meets protocol (Leaves fun event => Holding (Gadget.requestOf event) ws) eventFetch g := by
  refine protocol_rawIoctl (fun _ => .eventFetch h.pending) nofun fun reply succeeds =>
    protocol_ok ?_
  unfold Gadget.after
  rw [if_pos succeeds]
  exact ⟨rfl, h.enabled⟩

/-- One iteration, from no request to no request. -/
theorem protocol_iteration (h : Holding none [] g) (vars : LoopState) :
    Meets protocol (Leaves fun _ => Holding none []) (mainLoop vars) g := by
  refine Meets.seq (protocol_eventFetch h) fun event g h => ?_
  cases event with
  | control ctrl => exact protocol_handleControl h vars
  | disconnect | reset => exact Meets.seq (protocol_joins h _) fun _ _ h => protocol_ok h
  | connect | suspend | resume | unknown => exact protocol_ok h

end Handlers

/-! ## The data threads -/

/-- An ioctl that a data thread may ask for. -/
def OnEndpoint (w : Worker) (o : Op) : Prop := ∀ call, o = .ioctl call →
  (w.IsIn ∧ ∃ data, call = .epWrite (epHeader w.handle data.length) data) ∨
    (¬ w.IsIn ∧ call = .epRead (epHeader w.handle w.maxPacketSize.toNat))

/-- The buffer of an OUT thread holds one packet. -/
def HoldsPacket (w : Worker) (buf : List UInt8) : Prop :=
  ¬ w.IsIn → buf.length = w.maxPacketSize.toNat

theorem initial_holdsPacket (w : Worker) : HoldsPacket w w.initial := by
  intro isOut
  simp [Worker.initial, isOut]

theorem uses_onEndpoint {w : Worker} {buf : List UInt8} (holds : HoldsPacket w buf) :
    Uses (OnEndpoint w) (w.iteration buf) := by
  by_cases isIn : w.IsIn
  · rw [iteration_in isIn]
    refine ⟨nofun, fun result => ?_⟩
    cases result with
    | error e => trivial
    | ok ret =>
      dsimp only
      split
      · trivial
      · refine ⟨?_, fun _ => trivial⟩
        rintro _ ⟨⟩
        exact .inl ⟨isIn, ret.data, rfl⟩
  · rw [iteration_out_eq isIn, holds isIn]
    refine ⟨?_, fun reply => ?_⟩
    · rintro _ ⟨⟩
      exact .inr ⟨isIn, rfl⟩
    · dsimp only
      split
      · trivial
      · exact ⟨nofun, fun _ => trivial⟩

/-- It comes back with a buffer of the same length. -/
theorem returns_packet {w : Worker} {buf : List UInt8} (holds : HoldsPacket w buf) :
    Returns (fun next => ∀ buf', next = some buf' → HoldsPacket w buf') (w.iteration buf) := by
  by_cases isIn : w.IsIn
  · exact (returns_trivial _).mono fun _ _ _ _ isOut => absurd isIn isOut
  · rw [iteration_out_eq isIn]
    intro reply
    dsimp only
    split
    · rintro _ ⟨⟩
    · intro result buf' answered _
      cases result with
      | error e => cases answered
      | ok ret =>
        obtain ⟨_, same⟩ := Option.ite_none_left_eq_some.mp answered
        obtain rfl := Option.some.inj same
        rw [length_copyRead (Nat.le_refl _) (Nat.le_refl _)]
        exact holds isIn

/-! ## Runs -/

/-- The ioctl that a program is about to perform. -/
def nextIoctl {α : Type} : Routine α → Option Ioctl
  | .op (.ioctl call) _ => some call
  | _ => none

namespace System

/-- The ioctl of a step with its reply. -/
def ioctlAt (e : Entry System Action Unit) : Option (Ioctl × IoctlReply) :=
  match e.action with
  | .main (.ioctl reply) => (nextIoctl e.before.main.rest).map fun call => (call, reply)
  | .thread t (.ioctl reply) => (e.before.threads t).bind fun thread =>
    (nextIoctl thread.activity.rest).map fun call => (call, reply)
  | _ => none

def applied (g : Gadget) (e : Entry System Action Unit) : Gadget :=
  (ioctlAt e).elim g fun (call, reply) => g.after call reply

/-- The raw-gadget device after a run. -/
def gadget (log : SystemLog) : Gadget := log.foldl applied ⟨none, []⟩

/-- A data thread uses its own endpoint, which is enabled. -/
structure UsesEndpoint (g : Gadget) (thread : DataThread) : Prop where
  enabled : thread.worker ∈ g.endpoints
  uses : Uses (OnEndpoint thread.worker) thread.activity.rest
  returns : Returns (fun next => ∀ buf, next = some buf → HoldsPacket thread.worker buf)
    thread.activity.rest

theorem UsesEndpoint.enter {g : Gadget} {worker : Worker} (enabled : worker ∈ g.endpoints)
    {buf : List UInt8} (holds : HoldsPacket worker buf) : UsesEndpoint g (.enter worker buf) :=
  ⟨enabled, uses_onEndpoint holds, returns_packet holds⟩

/-- What it asks for is in turn and changes nothing. -/
theorem UsesEndpoint.allows {g : Gadget} {thread : DataThread} (h : UsesEndpoint g thread)
    {call : Ioctl} {k : IoctlReply → Routine (Option (List UInt8))}
    (rest : thread.activity.rest = .op (.ioctl call) k) :
    g.Allows call ∧ ∀ reply, g.after call reply = g := by
  have uses := h.uses
  rw [rest] at uses
  rcases uses.1 call rfl with ⟨isIn, data, rfl⟩ | ⟨isOut, rfl⟩
  · exact ⟨.epWrite h.enabled isIn, fun reply => by simp [Gadget.after]⟩
  · exact ⟨.epRead h.enabled isOut, fun reply => by simp [Gadget.after]⟩

theorem UsesEndpoint.answered {g : Gadget} {thread : DataThread} (h : UsesEndpoint g thread)
    {o : Op} {k : Reply o → Routine (Option (List UInt8))} (rest : thread.activity.rest = .op o k)
    (reply : Reply o) : UsesEndpoint g { thread with
      activity := thread.activity.answered ⟨o, reply⟩ (k reply) } := by
  obtain ⟨enabled, uses, returns⟩ := h
  rw [rest] at uses returns
  exact ⟨enabled, uses.2 reply, returns reply⟩

structure ProtocolInv (g : Gadget) (s : System) : Prop where
  main : Meets protocol (Leaves fun _ => Holding none []) s.main.rest g
  threads : ∀ t thread, s.threads t = some thread → UsesEndpoint g thread

theorem ProtocolInv.setThread {g : Gadget} {s : System} (h : ProtocolInv g s) (t : ThreadId)
    {thread : Option DataThread} (fits : ∀ x, thread = some x → UsesEndpoint g x) :
    ProtocolInv g (s.setThread t thread) := by
  refine ⟨h.main, fun u x hu => ?_⟩
  by_cases same : u = t
  · subst same
    exact fits x (by simpa [System.setThread] using hu)
  · exact h.threads u x (by simpa [System.setThread, same] using hu)

/-- A data thread leaves the device as it is. -/
theorem ProtocolInv.workerMove {g : Gadget} {s s' : System} {t : ThreadId} {thread : DataThread}
    (h : ProtocolInv g s) (live : s.threads t = some thread) (step : WorkerMove s t thread s') :
    ProtocolInv g s' := by
  have here := h.threads t thread live
  have keep {x : DataThread} (fits : UsesEndpoint g x) :
      ∀ y, some x = some y → UsesEndpoint g y := by
    rintro _ ⟨⟩
    exact fits
  cases step with
  | @ioctl call k reply rest =>
    have moved := h.setThread t (keep (here.answered rest reply))
    exact ⟨moved.main, moved.threads⟩
  | submit =>
    have moved := h.setThread t (keep (x := { thread with
      activity := { thread.activity with call := some s.called } })
      ⟨here.enabled, here.uses, here.returns⟩)
    exact ⟨moved.main, moved.threads⟩
  | resume rest => exact h.setThread t (keep (here.answered rest _))
  | next rest =>
    have returns := here.returns
    rw [rest] at returns
    exact h.setThread t (keep (.enter here.enabled (returns _ rfl)))
  | exit => exact h.setThread t nofun
  | unwind => exact h.setThread t nofun

/-- Only an ioctl of the main thread changes the device. -/
theorem applied_eq {g : Gadget} {s s' : System} {a : Action} (h : ProtocolInv g s)
    (step : s.step a = some s') (other : ∀ reply, a ≠ .main (.ioctl reply)) :
    applied g ⟨s, a, (), s'⟩ = g := by
  have here : ioctlAt ⟨s, a, (), s'⟩ = none ∨ ∃ call reply,
      ioctlAt ⟨s, a, (), s'⟩ = some (call, reply) ∧ g.after call reply = g := by
    cases a with
    | main m => cases m <;> first | exact .inl rfl | exact absurd rfl (other _)
    | thread t m =>
      cases m with
      | ioctl reply =>
        obtain ⟨thread, live, stepped⟩ := Option.bind_eq_some_iff.mp step
        obtain ⟨⟨call, activity⟩, hioctl, _⟩ := Option.map_eq_some_iff.mp stepped
        obtain ⟨k, rest, _⟩ := Activity.ioctl_cases hioctl
        refine .inr ⟨call, reply, ?_, ((h.threads t thread live).allows rest).2 reply⟩
        simp [ioctlAt, live, rest, nextIoctl]
      | _ => exact .inl rfl
    | unwind t => exact .inl rfl
    | bridge b => exact .inl rfl
  rcases here with none | ⟨call, reply, same, kept⟩
  · simp [applied, none]
  · simp [applied, same, kept]

theorem ProtocolInv.mainIoctl {g : Gadget} {s s' : System} {reply : IoctlReply}
    (h : ProtocolInv g s) (step : s.step (.main (.ioctl reply)) = some s') :
    ProtocolInv (applied g ⟨s, .main (.ioctl reply), (), s'⟩) s' := by
  obtain ⟨⟨call, main⟩, hioctl, rfl⟩ := Option.map_eq_some_iff.mp step
  obtain ⟨k, rest, rfl⟩ := Activity.ioctl_cases hioctl
  have now := h.main
  rw [rest] at now
  obtain ⟨⟨permitted, _⟩, next⟩ := now g rfl
  have applied : System.applied g ⟨s, .main (.ioctl reply), (), { s with
      main := s.main.answered ⟨.ioctl call, reply⟩ (k reply),
      enabled := call.effect reply s.enabled }⟩ = g.after call reply := by
    simp [System.applied, ioctlAt, rest, nextIoctl]
  refine ⟨?_, fun t thread live => ?_⟩
  · rw [applied]
    exact next reply trivial
  · rw [applied]
    have uses := h.threads t thread live
    exact ⟨g.keeps (permitted call rfl).2 reply uses.enabled, uses.uses, uses.returns⟩

theorem ProtocolInv.mainMove {g : Gadget} {s s' : System} {m : Move} (h : ProtocolInv g s)
    (step : MainMove s m s') (other : ∀ reply, m ≠ .ioctl reply) : ProtocolInv g s' := by
  have now := h.main
  cases step with
  | ioctl => exact absurd rfl (other _)
  | submit => exact ⟨h.main, h.threads⟩
  | @resume request k c result rest =>
    rw [rest] at now
    exact ⟨(now g rfl).2 result trivial, h.threads⟩
  | @spawn worker k rest =>
    rw [rest] at now
    obtain ⟨⟨_, enabled⟩, next⟩ := now g rfl
    refine ⟨next s.spawned trivial, fun t thread live => ?_⟩
    by_cases new : t = s.spawned
    · subst new
      obtain rfl : DataThread.enter worker worker.initial = thread := by simpa using live
      exact .enter (enabled worker rfl) (initial_holdsPacket worker)
    · exact h.threads t thread (by simpa [new] using live)
  | @join t k rest =>
    rw [rest] at now
    exact ⟨(now g rfl).2 () trivial, h.threads⟩
  | @next vars rest =>
    rw [rest] at now
    exact ⟨protocol_iteration (now g rfl) vars, h.threads⟩

theorem ProtocolInv.step {g : Gadget} {s s' : System} {a : Action} (h : ProtocolInv g s)
    (step : s.step a = some s') : ProtocolInv (applied g ⟨s, a, (), s'⟩) s' := by
  by_cases ioctl : ∃ reply, a = .main (.ioctl reply)
  · obtain ⟨reply, rfl⟩ := ioctl
    exact h.mainIoctl step
  · have other : ∀ reply, a ≠ .main (.ioctl reply) := fun reply same => ioctl ⟨reply, same⟩
    rw [applied_eq h step other]
    cases step_cases step with
    | main move => exact h.mainMove move fun reply same => other reply (same ▸ rfl)
    | thread live move => exact h.workerMove live move
    | bridge => exact ⟨h.main, h.threads⟩

theorem protocolInv_of_run {bridge : Bridge} {log : SystemLog} {s : System}
    (run : Logged perform (new bridge) log s) : ProtocolInv (gadget log) s := by
  refine run.invariant (fun log s => ProtocolInv (gadget log) s) ?_ fun log s a _ s' ih hop => ?_
  · exact ⟨protocol_iteration ⟨rfl, nofun⟩ _, nofun⟩
  · obtain ⟨_, move, same⟩ := Option.map_eq_some_iff.mp hop
    cases same
    have later : gadget (log ++ [⟨s, a, (), s'⟩]) = applied (gadget log) ⟨s, a, (), s'⟩ :=
      List.foldl_append
    rw [later]
    exact ih.step move

/-- What the program is about to ask of the device is in turn. -/
structure InTurn (g : Gadget) (s : System) : Prop where
  /-- The main thread, unless it has mistaken the request that waits. -/
  main : ∀ call k, s.main.rest = .op (.ioctl call) k → g.Standard → g.Allows call
  threads : ∀ t thread call k, s.threads t = some thread →
    thread.activity.rest = .op (.ioctl call) k → g.Allows call
  /-- Between two iterations no request waits. -/
  completed : ∀ vars, s.main.rest = .done (.ok vars) → g.pending = none
  /-- Every live thread has the handle that its endpoint was enabled with. -/
  handles : ∀ t thread, s.threads t = some thread → thread.worker ∈ g.endpoints

/-- For any server, any replies of the kernel and any interleaving. -/
theorem gadget_protocol {bridge : Bridge} {log : SystemLog} {s : System}
    (run : Logged perform (new bridge) log s) : InTurn (gadget log) s := by
  have inv := protocolInv_of_run run
  refine ⟨fun call k rest => ?_, fun t thread call k live rest => ?_, fun vars rest => ?_,
    fun t thread live => (inv.threads t thread live).enabled⟩
  · have now := inv.main
    rw [rest] at now
    exact ((now _ rfl).1.1 call rfl).1
  · exact ((inv.threads t thread live).allows rest).1
  · have now := inv.main
    rw [rest] at now
    exact (now _ rfl).pending

/-- The keyboard's endpoint is served on its handle. -/
theorem gadget_protocol_report : ∃ log s, (s.threads 0).isSome ∧ InTurn (gadget log) s := by
  obtain ⟨s, reached, found⟩ := Reaches.of_exec_any System.step always_of_anyStep device
    oneReport (fun s => (s.threads 0).isSome) (by decide +kernel)
  obtain ⟨log, run⟩ := Logged.of_reaches reached
  exact ⟨log, s, found, gadget_protocol run⟩

end System

end UsbipDevirt
