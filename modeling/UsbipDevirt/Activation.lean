import UsbipDevirt.Failures
import UsbipDevirt.Lengths
import UsbipDevirt.Lifecycle
import UsbipDevirt.Settings

/-!
# The order of activation

An accepted SET_CONFIGURATION is carried out in one order: the endpoints are
enabled as the cached descriptor lists them, the power is drawn, the gadget is
configured, the request is acknowledged, and only then are the data threads
started, each with the handle of its own endpoint. What fails leaves the rest
undone and takes nothing back.
-/

namespace UsbipDevirt

open Program Program.Prog RawGadgetDevice

/-- The handles that `ep_enable` has returned in a trace. -/
def handlesOf (es : Trace) : List EpHandle := es.filterMap fun e =>
  match e with
  | ⟨.ioctl (.epEnable _), reply⟩ => if reply.Succeeds then some ⟨reply.ret.toUInt32⟩ else none
  | _ => none

@[simp] theorem handlesOf_append (es fs : Trace) :
    handlesOf (es ++ fs) = handlesOf es ++ handlesOf fs := List.filterMap_append

theorem handlesOf_eq_nil {es : Trace} (h : ∀ e ∈ es, NotEnable e.op) : handlesOf es = [] := by
  refine List.filterMap_eq_nil_iff.mpr fun e he => ?_
  have other := h e he
  split
  · next desc reply => exact absurd rfl (other desc)
  · rfl

/-- `bMaxPower`, if the descriptor is long enough to have one. -/
def powerOps (configData : List UInt8) : List Op :=
  (configData[7]?.map fun power => Op.ioctl (.vbusDraw power.toUInt32)).toList

def enableOps (descs : List UsbEndpointDescriptor) : List Op :=
  descs.map fun desc => .ioctl (.epEnable desc)

/-- The operations that activate a configuration, given the handles of its endpoints. -/
def activationOps (configData : List UInt8) (handles : List EpHandle) : List Op :=
  enableOps (parseEndpointDescriptors configData) ++
    (powerOps configData ++ [.ioctl .configure, .ioctl (.ep0Read (ep0Header 0))] ++
      ((parseEndpointDescriptors configData).zipWith Worker.mk handles).map .spawn)

/-! ## The parts -/

section Scripted

variable {α : Type}

/-- An ioctl followed by `?`. -/
theorem scripted_rawIoctl (call : Ioctl) {f : IoctlReply → Routine α} {script : List Op}
    (hf : ∀ reply, Scripted script (f reply)) : Scripted (.ioctl call :: script)
      (rawIoctl call >>= fun result => ofResult result >>= f) := by
  rw [rawIoctl_bind]
  refine scripted_op fun reply => ?_
  by_cases failed : reply.ret < 0
  · rw [if_pos failed]
    exact scripted_error _
  · rw [if_neg failed]
    exact hf reply

theorem scripted_enableEndpoints (descs : List UsbEndpointDescriptor) :
    Scripted (enableOps descs) (enableEndpoints descs) := by
  induction descs with
  | nil => exact scripted_return _
  | cons desc descs ih =>
    have enabled : Scripted [.ioctl (.epEnable desc)] (epEnable desc) :=
      scripted_rawIoctl _ fun _ => scripted_return _
    have rest (handle : EpHandle) : Scripted (enableOps descs)
        (do let handles ← enableEndpoints descs; return handle :: handles) := by
      simpa using ih.bind fun handles => scripted_return (handle :: handles)
    exact enabled.bind rest

theorem scripted_drawPower (configData : List UInt8) :
    Scripted (powerOps configData) (drawPower configData) := by
  unfold drawPower powerOps
  cases configData[7]? with
  | none => exact scripted_return _
  | some power => exact scripted_rawIoctl _ fun _ => scripted_return _

theorem scripted_acknowledge (configData : List UInt8) :
    Scripted (powerOps configData ++ [.ioctl .configure, .ioctl (.ep0Read (ep0Header 0))])
      (acknowledge configData) := by
  refine (scripted_drawPower configData).bind fun _ => ?_
  have configured : Scripted [.ioctl .configure] configure :=
    scripted_rawIoctl _ fun _ => scripted_return _
  refine configured.bind fun _ => ?_
  have read : Scripted [.ioctl (.ep0Read (ep0Header 0))] (ep0Read []) :=
    scripted_rawIoctl _ fun _ => scripted_return _
  exact read.bind fun _ => scripted_return _

theorem scripted_spawnEpThreads (workers : List Worker) :
    Scripted (workers.map .spawn) (spawnEpThreads workers) := by
  induction workers with
  | nil => exact scripted_return _
  | cons worker workers ih =>
    rw [spawnEpThreads, spawn_bind]
    refine scripted_op fun thread => ?_
    simpa using ih.bind fun threads => scripted_return (thread :: threads)

end Scripted

/-- The handles returned are those of the trace. -/
theorem handlesOf_enableEndpoints {descs : List UsbEndpointDescriptor} {es : Trace}
    {handles : List EpHandle} (run : Runs (enableEndpoints descs) es (.ok handles)) :
    handlesOf es = handles := by
  induction descs generalizing es handles with
  | nil =>
    obtain ⟨rfl, same⟩ := runs_done_iff.mp run
    cases same
    rfl
  | cons desc descs ih =>
    simp only [enableEndpoints, epEnable, rawIoctl_bind, op_bind, runs_op_iff] at run
    obtain ⟨reply, rest, rfl, hrest⟩ := run
    by_cases failed : reply.ret < 0
    · rw [if_pos failed] at hrest
      cases (runs_done_iff.mp hrest).2
    · rw [if_neg failed] at hrest
      have hrest : Runs (enableEndpoints descs >>= fun handles =>
        return (⟨reply.ret.toUInt32⟩ : EpHandle) :: handles) rest (.ok handles) := hrest
      rcases runs_bind_iff.mp hrest with ⟨_, _, ⟨⟩⟩ | ⟨others, first, last, rfl, enabled, ended⟩
      obtain ⟨rfl, same⟩ := runs_done_iff.mp ended
      cases same
      rw [List.append_nil, ← ih enabled]
      exact List.filterMap_cons_some (if_pos failed)

theorem spawns_eq_nil {es : Trace} (h : ∀ e ∈ es, NotSpawn e.op) : spawns es = [] := by
  refine List.filterMap_eq_nil_iff.mpr fun e he => ?_
  have other := h e he
  split
  · next worker t => exact absurd rfl (other worker)
  · rfl

theorem spawns_spawnEpThreads {workers : List Worker} {es : Trace} {threads : List ThreadId}
    (run : Runs (spawnEpThreads workers) es (.ok threads)) : spawns es = threads := by
  induction workers generalizing es threads with
  | nil =>
    obtain ⟨rfl, same⟩ := runs_done_iff.mp run
    cases same
    rfl
  | cons worker workers ih =>
    simp only [spawnEpThreads, spawn_bind, runs_op_iff] at run
    obtain ⟨thread, rest, rfl, hrest⟩ := run
    rcases runs_bind_iff.mp hrest with ⟨_, _, ⟨⟩⟩ | ⟨others, first, last, rfl, spawned, ended⟩
    obtain ⟨rfl, same⟩ := runs_done_iff.mp ended
    cases same
    rw [List.append_nil, ← ih spawned]
    rfl

/-! ## The whole -/

/-- An activation has been completed, with these threads. -/
structure Activated (configData : List UInt8) (es : Trace) (threads : List ThreadId) : Prop where
  performed : es.map Event.op = activationOps configData (handlesOf es)
  /-- There is a handle for each endpoint. -/
  enabled : (handlesOf es).length = (parseEndpointDescriptors configData).length
  spawned : threads = spawns es

theorem after_activate {configData : List UInt8} {es : Trace} {q : Routine (List ThreadId)}
    (run : After (activate configData) es q) :
    es.map Event.op <+: activationOps configData (handlesOf es) ∧
      ∀ threads, q = .done (.ok threads) → Activated configData es threads := by
  rw [activate_eq] at run
  rcases (scripted_enableEndpoints _).after_bind run with
    ⟨inside, unfinished⟩ | ⟨handles, first, rest, rfl, enabled, opened, later⟩
  · exact ⟨inside.trans (List.prefix_append ..), fun threads done =>
      absurd done (unfinished threads)⟩
  have calm : Uses NotEnable (acknowledge configData >>= fun _ => spawnEpThreads
      ((parseEndpointDescriptors configData).zipWith Worker.mk handles)) :=
    (uses_acknowledge (fun _ h desc hop => h desc (Op.ioctl.inj hop)) _).bind fun _ =>
      uses_spawnEpThreads (fun _ _ => by simp) _
  have same : handlesOf (first ++ rest) = handles := by
    rw [handlesOf_append, handlesOf_enableEndpoints enabled,
      handlesOf_eq_nil (calm.after later).1, List.append_nil]
  have script := (scripted_acknowledge configData).bind fun _ => scripted_spawnEpThreads
    ((parseEndpointDescriptors configData).zipWith Worker.mk handles)
  obtain ⟨inside, all⟩ := script rest q later
  rw [same, List.map_append, opened]
  refine ⟨(List.prefix_append_right_inj _).mpr inside, fun threads done => ?_⟩
  subst done
  refine ⟨by rw [same, List.map_append, opened, all threads rfl]; rfl, ?_, ?_⟩
  · rw [same]
    exact (length_enableEndpoints _).of_runs enabled
  · rcases runs_bind_iff.mp later with ⟨_, _, ⟨⟩⟩ | ⟨_, mid, last, rfl, between, spawned⟩
    have opening : Uses NotSpawn (enableEndpoints (parseEndpointDescriptors configData)) :=
      uses_enableEndpoints (fun _ _ => by simp) _
    have idle : Uses NotSpawn (acknowledge configData) :=
      uses_acknowledge (fun _ _ _ => by simp) _
    rw [spawns_append, spawns_append, spawns_eq_nil (opening.after enabled).1,
      spawns_eq_nil (idle.after between).1, spawns_spawnEpThreads spawned]
    rfl

theorem after_accepted {ctrl : UsbCtrlRequest} {vars : LoopState} {configData : List UInt8}
    {resp : RetSubmit} {es : Trace} {q : Routine LoopState} (run : After (mainLoop vars) es q)
    (selects : dispatch ctrl = .setConfiguration) (accepted : Answered ctrl resp es)
    (cached : vars.cachedConfigDesc = some configData) : ∃ fetch request rest,
      es = fetch :: ⟨.submit request, .ok resp⟩ :: rest ∧
      After (activate configData >>= fun threads => return { vars with epThreads := threads })
        rest q := by
  obtain ⟨fetch, request, rest, rfl, fetched, success⟩ := accepted
  obtain ⟨_, epThreads⟩ := vars
  cases cached
  obtain ⟨_, _, same, handled⟩ := after_mainLoop run ((eventOf_cons fetch _).trans fetched)
  cases same
  have handled : After (handleControl ctrl ⟨some configData, epThreads⟩)
    (⟨.submit request, .ok resp⟩ :: rest) q := handled
  rw [handleControl_of_setConfiguration selects] at handled
  rcases after_op_iff.mp handled with ⟨⟨⟩, _⟩ | ⟨reply, tail, same, later⟩
  cases same
  have later : After ((if resp.status ≠ 0 then do
        ep0Stall
        return epThreads
      else activate configData) >>= fun threads => return ⟨some configData, threads⟩) rest q :=
    later
  rw [if_neg (not_not.mpr success)] at later
  exact ⟨fetch, _, _, rfl, later⟩

/-- An activation that has come so far and stands before `q`. -/
structure Activating (configData : List UInt8) (vars : LoopState) (es : Trace)
    (q : Routine LoopState) : Prop where
  inOrder : es.map Event.op <+: activationOps configData (handlesOf es)
  /-- Nothing has failed as long as it goes on, nor when it is completed. -/
  clean : (∀ e, q ≠ .done (.error e)) → Clean es
  completed : ∀ vars', q = .done (.ok vars') →
    Activated configData es vars'.epThreads ∧ vars'.cachedConfigDesc = vars.cachedConfigDesc
  /-- It is given up only at a failure. -/
  failed : ∀ e, q = .done (.error e) → ∃ before last, es = before ++ [last] ∧ Clean before ∧
    failure last = some e

theorem activating {configData : List UInt8} {vars : LoopState} {es : Trace}
    {q : Routine LoopState}
    (run : After (activate configData >>= fun threads => return { vars with epThreads := threads })
      es q) : Activating configData vars es q := by
  have stops : Stops (failing failure)
      (activate configData >>= fun threads => return { vars with epThreads := threads }) :=
    (stops_activate configData).bind fun _ => stops_done _
  refine ⟨?_, fun goesOn => ?_, ?_, ?_⟩
  · rcases run.bind_cases with ⟨p, inside, _, _⟩ | ⟨threads, first, rest, rfl, ended, later⟩
    · exact (after_activate inside).1
    · obtain ⟨rfl, _⟩ := after_done_iff.mp later
      rw [List.append_nil]
      exact (after_activate ended).1
  · cases q with
    | op o k => exact fun e he => failing_eq_none.mp (stops.of_after run e he)
    | done r =>
      rcases stops.of_runs run with clean | ⟨_, _, _, _, stopped⟩
      · exact fun e he => failing_eq_none.mp (clean e he)
      · obtain ⟨e, _, rfl⟩ := Option.map_eq_some_iff.mp stopped
        exact absurd rfl (goesOn e)
  · rintro vars' rfl
    rcases runs_bind_iff.mp run with ⟨_, _, ⟨⟩⟩ | ⟨threads, first, rest, rfl, ended, later⟩
    obtain ⟨rfl, same⟩ := runs_done_iff.mp later
    cases same
    rw [List.append_nil]
    exact ⟨(after_activate ended).2 threads rfl, rfl⟩
  · rintro e rfl
    rcases stops.of_runs run with clean | ⟨before, last, rfl, clean, stopped⟩
    · have clean : Clean es := fun e he => failing_eq_none.mp (clean e he)
      have performs := (performs_activate configData).bind fun threads =>
        performs_return { vars with epThreads := threads }
      obtain ⟨_, _, _, ⟨⟩⟩ := performs es _ run ((clean_iff es).mp clean).1
    · obtain ⟨e', failed, same⟩ := Option.map_eq_some_iff.mp stopped
      cases same
      exact ⟨before, last, rfl, fun e he => failing_eq_none.mp (clean e he), failed⟩

/-- In every state of the whole program in which the main thread has an accepted
SET_CONFIGURATION in hand, what it has done since is an initial part of the
activation, with every thread on the handle of its endpoint, and nothing of it has
failed. The request ends with all of it done, or at the first failure. -/
theorem System.configuration_activating {guard : System → System.Action → Prop} {bridge : Bridge}
    {s : System} (run : Transition.Reaches System.step guard (System.new bridge) s)
    {ctrl : UsbCtrlRequest} {resp : RetSubmit} {configData : List UInt8}
    (selects : dispatch ctrl = .setConfiguration) (accepted : Answered ctrl resp s.main.trace)
    (cached : s.main.vars.cachedConfigDesc = some configData) : ∃ fetch request rest,
      s.main.trace = fetch :: ⟨.submit request, .ok resp⟩ :: rest ∧
      Activating configData s.main.vars rest s.main.rest := by
  obtain ⟨_, _, standing⟩ := System.reaches_follows run
  obtain ⟨fetch, request, rest, trace, later⟩ := after_accepted standing selects accepted cached
  exact ⟨fetch, request, rest, trace, activating later⟩

/-- SET_CONFIGURATION is accepted, and the whole descriptor is in the cache. -/
def System.selecting (s : System) : Bool :=
  match s.main.trace with
  | first :: ⟨.submit _, .ok resp⟩ :: _ =>
    decide (eventOf [first] = some (.control System.setConfiguration) ∧ resp.status = 0 ∧
      s.main.vars.cachedConfigDesc = some System.configDescriptor ∧
      spawnedWorkers s.main.trace ≠ [])
  | _ => false

theorem System.answered_of_selecting {s : System} (h : s.selecting = true) :
    (∃ resp, Answered System.setConfiguration resp s.main.trace) ∧
      s.main.vars.cachedConfigDesc = some System.configDescriptor ∧
      spawnedWorkers s.main.trace ≠ [] := by
  unfold System.selecting at h
  split at h
  · next first request resp rest trace =>
    obtain ⟨fetched, success, cached, spawned⟩ := of_decide_eq_true h
    exact ⟨⟨resp, first, request, rest, trace, fetched, success⟩, cached, spawned⟩
  · cases h

/-- The one endpoint is served. -/
theorem System.configuration_activating_report : ∃ s : System,
    spawnedWorkers s.main.trace ≠ [] ∧
      ∃ rest, Activating System.configDescriptor s.main.vars rest s.main.rest := by
  obtain ⟨s, reached, found⟩ := Transition.Reaches.of_exec_any System.step
    Transition.always_of_anyStep System.device
    (System.readConfig 0 1 System.configDescriptor ++ (System.configured 1 2).dropLast)
    System.selecting (by decide +kernel)
  obtain ⟨⟨resp, answered⟩, cached, spawned⟩ := System.answered_of_selecting found
  obtain ⟨_, _, rest, _, activating⟩ :=
    System.configuration_activating reached (by decide) answered cached
  exact ⟨s, spawned, rest, activating⟩

end UsbipDevirt
