import UsbipDevirt.Control
import UsbipDevirt.System

/-!
# The cached configuration descriptor

SET_CONFIGURATION parses whatever the last reply to a request with number 6 and
descriptor type 2 has left in the cache, whichever configuration it was about
and however much of it was asked for.
-/

namespace UsbipDevirt

open Program Program.Prog RawGadgetDevice

/-! ## The cache over a run -/

/-- The data that an iteration puts into the cache. -/
def configReply : Trace → Option (List UInt8)
  | first :: ⟨.submit _, .ok resp⟩ :: _ =>
    match eventOf [first] with
    | some (.control ctrl) =>
      if ctrl.IsIn ∧ ctrl.Caches ∧ resp.status = 0 then some resp.data else none
    | _ => none
  | _ => none

/-- The iteration handles Reset or Disconnect. -/
def Resets (es : Trace) : Prop := eventOf es = some .reset ∨ eventOf es = some .disconnect

instance (es : Trace) : Decidable (Resets es) := inferInstanceAs (Decidable (_ ∨ _))

def cacheAfter (cache : Option (List UInt8)) (es : Trace) : Option (List UInt8) :=
  if Resets es then none else (configReply es).or cache

/-- An iteration fetches an event and handles it, unless fetching fails. -/
theorem runs_mainLoop {vars : LoopState} {es : Trace} {r : Except IoError LoopState}
    (run : Runs (mainLoop vars) es r) : ∃ first rest, es = first :: rest ∧
      ((eventOf [first] = none ∧ ∃ e, r = .error e) ∨
        ∃ event, eventOf [first] = some event ∧ Runs (handleEvent event vars) rest r) := by
  unfold mainLoop eventFetch at run
  simp only [rawIoctl_bind, op_bind, runs_op_iff] at run
  obtain ⟨reply, rest, rfl, hrest⟩ := run
  refine ⟨_, rest, rfl, ?_⟩
  by_cases failed : reply.ret < 0
  · rw [if_pos failed] at hrest
    exact .inl ⟨if_neg (not_not.mpr failed), _, (runs_done_iff.mp hrest).2⟩
  · rw [if_neg failed] at hrest
    exact .inr ⟨_, if_pos failed, hrest⟩

/-- The part of `handle_control_in` after the reply. -/
theorem runs_controlIn {ctrl : UsbCtrlRequest} {vars vars' : LoopState} {es : Trace}
    (h : dispatch ctrl = .controlIn) (run : Runs (handleControl ctrl vars) es (.ok vars')) :
    ∃ request resp rest, es = ⟨.submit request, .ok resp⟩ :: rest ∧
      vars'.cachedConfigDesc =
        if ctrl.Caches ∧ resp.status = 0 then some resp.data else vars.cachedConfigDesc := by
  rw [handleControl_of_controlIn h] at run
  obtain ⟨reply, rest, rfl, hrest⟩ := runs_op_iff.mp run
  cases reply with
  | error e => cases (runs_done_iff.mp hrest).2
  | ok resp =>
    refine ⟨_, resp, rest, rfl, ?_⟩
    refine Returns.of_runs (Q := fun vars' : LoopState => vars'.cachedConfigDesc =
      if ctrl.Caches ∧ resp.status = 0 then some resp.data else vars.cachedConfigDesc) ?_ hrest
    refine Returns.seq (P := fun cache => cache =
      if ctrl.Caches ∧ resp.status = 0 then some resp.data else vars.cachedConfigDesc) ?_ ?_
    · show Returns _ (if resp.status = 0 then _ else _)
      by_cases accepted : resp.status = 0
      · rw [if_pos accepted]
        refine Returns.bind fun _ => ?_
        simp [accepted, Returns]
      · rw [if_neg accepted]
        refine Returns.bind fun _ => ?_
        simp [accepted, Returns]
    · exact fun _ same => same

/-- Only `handle_control_in` changes the cache. -/
theorem handleControl_keeps_cache {ctrl : UsbCtrlRequest} (other : dispatch ctrl ≠ .controlIn)
    (vars : LoopState) :
    Returns (fun vars' => vars'.cachedConfigDesc = vars.cachedConfigDesc)
      (handleControl ctrl vars) := by
  cases h : dispatch ctrl with
  | setAddress =>
    rw [handleControl_of_setAddress h]
    exact Returns.bind fun _ => rfl
  | setConfiguration =>
    rw [handleControl_of_setConfiguration h]
    exact Returns.bind fun _ => rfl
  | controlIn => exact absurd h other
  | controlOutWithData =>
    rw [handleControl_of_outWithData h]
    exact Returns.bind fun _ => rfl
  | controlOutNoData =>
    rw [handleControl_of_outNoData h]
    exact Returns.bind fun _ => rfl

theorem dispatch_of_caches {ctrl : UsbCtrlRequest} (isIn : ctrl.IsIn) (caches : ctrl.Caches) :
    dispatch ctrl = .controlIn := by
  simp [dispatch, isIn, caches.1, usbReqGetDescriptor, usbReqSetAddress, usbReqSetConfiguration]

theorem configReply_of_other {first : Program.Event Reply} {event : Event} (rest : Trace)
    (hevent : eventOf [first] = some event)
    (other : ∀ ctrl, event = .control ctrl → dispatch ctrl ≠ .controlIn) :
    configReply (first :: rest) = none := by
  unfold configReply
  split
  · next first' request resp rest' hes =>
    obtain ⟨rfl, _⟩ := List.cons.inj hes
    rw [hevent]
    split
    · next ctrl hctrl =>
      refine if_neg fun h => ?_
      exact other ctrl (Option.some.inj hctrl) (dispatch_of_caches h.1 h.2.1)
    · rfl
  · rfl

/-- The cache after an iteration, from what happened in it. -/
theorem mainLoop_cache {vars vars' : LoopState} {es : Trace}
    (run : Runs (mainLoop vars) es (.ok vars')) :
    vars'.cachedConfigDesc = cacheAfter vars.cachedConfigDesc es := by
  obtain ⟨first, rest, rfl, ⟨_, e, ⟨⟩⟩ | ⟨event, hevent, hrest⟩⟩ := runs_mainLoop run
  have kept : (∀ ctrl, event = .control ctrl → dispatch ctrl ≠ .controlIn) →
      event ≠ .reset → event ≠ .disconnect →
      cacheAfter vars.cachedConfigDesc (first :: rest) = vars.cachedConfigDesc := by
    intro other noReset noDisconnect
    simp [cacheAfter, Resets, eventOf_cons, hevent, noReset, noDisconnect,
      configReply_of_other rest hevent other]
  have reset : Runs (do joinAll vars.epThreads; return ⟨none, []⟩) rest (.ok vars') →
      vars'.cachedConfigDesc = none := by
    intro run
    have returns : Returns (fun vars' : LoopState => vars'.cachedConfigDesc = none)
        (do joinAll vars.epThreads; return ⟨none, []⟩ : Routine LoopState) :=
      Returns.bind fun _ => rfl
    exact returns.of_runs run
  cases event with
  | connect | suspend | resume | unknown =>
    rw [kept nofun nofun nofun]
    cases (runs_done_iff.mp hrest).2
    rfl
  | reset | disconnect => simp [cacheAfter, Resets, eventOf_cons, hevent, reset hrest]
  | control ctrl =>
    by_cases h : dispatch ctrl = .controlIn
    · obtain ⟨request, resp, tail, rfl, cache⟩ := runs_controlIn h hrest
      have noReset : ¬ Resets (first :: ⟨.submit request, .ok resp⟩ :: tail) := by
        simp [Resets, eventOf_cons, hevent]
      simp only [cache, cacheAfter, noReset, configReply, hevent, isIn_of_dispatch h, true_and,
        if_false]
      split <;> rfl
    · rw [kept (fun _ same => Event.control.inj same ▸ h) nofun nofun]
      exact (handleControl_keeps_cache h vars).of_runs hrest

/-- Without a reset, the last reply is what the cache holds. -/
theorem foldl_cacheAfter {ess : List Trace} (noReset : ∀ es ∈ ess, ¬ Resets es)
    (cache : Option (List UInt8)) :
    ess.foldl cacheAfter cache = (ess.filterMap configReply).getLast?.or cache := by
  induction ess generalizing cache with
  | nil => rfl
  | cons es ess ih =>
    obtain ⟨first, rest⟩ := List.forall_mem_cons.mp noReset
    rw [List.foldl_cons, ih rest, cacheAfter, if_neg first]
    cases hreply : configReply es with
    | none => simp [hreply]
    | some data =>
      rw [List.filterMap_cons_some hreply, List.getLast?_cons]
      cases (ess.filterMap configReply).getLast? <;> rfl

theorem cache_of_history {ess : List Trace} {vars : LoopState}
    (history : Iterates mainLoop ⟨none, []⟩ ess vars) :
    vars.cachedConfigDesc = ess.foldl cacheAfter none :=
  history.foldl LoopState.cachedConfigDesc fun _ _ _ => mainLoop_cache

/-- In every state of the whole program the cache is that of some history. -/
theorem System.reaches_cache {guard : System → System.Action → Prop} {bridge : Bridge}
    {s : System} (run : Transition.Reaches System.step guard (System.new bridge) s) :
    ∃ ess, Iterates mainLoop ⟨none, []⟩ ess s.main.vars ∧
      s.main.vars.cachedConfigDesc = ess.foldl cacheAfter none := by
  obtain ⟨ess, history, _⟩ := System.reaches_follows run
  exact ⟨ess, history, cache_of_history history⟩

/-! ## Enabling the endpoints -/

/-- The endpoints are enabled in order, up to the first failure. -/
theorem enables_enableEndpoints {descs : List UsbEndpointDescriptor} {es : Trace}
    {r : Except IoError (List EpHandle)} (run : Runs (enableEndpoints descs) es r) :
    enables es <+: descs ∧
      (IoctlsSucceed es → enables es = descs ∧ ∃ handles, r = .ok handles) := by
  induction descs generalizing es r with
  | nil =>
    obtain ⟨rfl, rfl⟩ := runs_done_iff.mp run
    exact ⟨List.nil_prefix, fun _ => ⟨rfl, [], rfl⟩⟩
  | cons desc descs ih =>
    simp only [enableEndpoints, epEnable, rawIoctl_bind, op_bind, runs_op_iff] at run
    obtain ⟨reply, rest, rfl, hrest⟩ := run
    rw [ioctlsSucceed_cons_ioctl]
    show desc :: enables rest <+: _ ∧ (_ → desc :: enables rest = _ ∧ _)
    by_cases failed : reply.ret < 0
    · rw [if_pos failed] at hrest
      obtain ⟨rfl, rfl⟩ := runs_done_iff.mp hrest
      exact ⟨List.prefix_append [desc] descs, fun success => absurd failed success.1⟩
    · rw [if_neg failed] at hrest
      have hrest : Runs (enableEndpoints descs >>= fun handles =>
        return (⟨reply.ret.toUInt32⟩ : EpHandle) :: handles) rest r := hrest
      rcases runs_bind_iff.mp hrest with ⟨e, run, rfl⟩ | ⟨handles, first, last, rfl, run, ended⟩
      · obtain ⟨inside, all⟩ := ih run
        refine ⟨(List.prefix_cons_inj desc).mpr inside, fun success => ?_⟩
        obtain ⟨_, _, ⟨⟩⟩ := all success.2
      · obtain ⟨rfl, rfl⟩ := runs_done_iff.mp ended
        obtain ⟨inside, all⟩ := ih run
        rw [List.append_nil]
        refine ⟨(List.prefix_cons_inj desc).mpr inside, fun success => ?_⟩
        exact ⟨congrArg (desc :: ·) (all success.2).1, _, rfl⟩

/-- What is left to do once SET_CONFIGURATION is accepted. -/
def activate (configData : List UInt8) : Routine (List ThreadId) := do
  let epHandles ← enableEndpoints (parseEndpointDescriptors configData)
  drawPower configData
  configure
  let _ ← ep0Read []
  spawnEpThreads ((parseEndpointDescriptors configData).zipWith Worker.mk epHandles)

theorem runs_activate {ctrl : UsbCtrlRequest} {vars : LoopState}
    {configData : List UInt8} {request : UrbRequest} {resp : RetSubmit} {es : Trace}
    {r : Except IoError LoopState} (h : dispatch ctrl = .setConfiguration)
    (cached : vars.cachedConfigDesc = some configData)
    (run : Runs (handleControl ctrl vars) (⟨.submit request, .ok resp⟩ :: es) r)
    (accepted : resp.status = 0) : ∃ r', Runs (activate configData) es r' := by
  rw [handleControl_of_setConfiguration h] at run
  obtain ⟨r', run⟩ := Runs.of_bind_pure run
  obtain ⟨reply, rest, hes, hrest⟩ := runs_op_iff.mp run
  cases hes
  have hrest : Runs (if resp.status ≠ 0 then _ else _) es r' := hrest
  rw [if_neg (not_not.mpr accepted), cached] at hrest
  exact ⟨r', hrest⟩

/-- The endpoints enabled after the reply are those of the cached descriptor. -/
theorem enables_setConfiguration {ctrl : UsbCtrlRequest} {vars : LoopState}
    {configData : List UInt8} {request : UrbRequest} {resp : RetSubmit} {es : Trace}
    {r : Except IoError LoopState} (h : dispatch ctrl = .setConfiguration)
    (cached : vars.cachedConfigDesc = some configData)
    (run : Runs (handleControl ctrl vars) (⟨.submit request, .ok resp⟩ :: es) r)
    (accepted : resp.status = 0) :
    enables es <+: parseEndpointDescriptors configData ∧
      (IoctlsSucceed es → enables es = parseEndpointDescriptors configData) := by
  obtain ⟨r', activates⟩ := runs_activate h cached run accepted
  rcases runs_bind_iff.mp activates with ⟨e, run, _⟩ | ⟨handles, first, last, rfl, run, others⟩
  · obtain ⟨inside, all⟩ := enables_enableEndpoints run
    exact ⟨inside, fun succeed => (all succeed).1⟩
  · have quiet : Uses NotEnable (do
        drawPower configData
        configure
        let _ ← ep0Read []
        spawnEpThreads ((parseEndpointDescriptors configData).zipWith Worker.mk handles)) := by
      refine (uses_drawPower (fun _ _ => by simp) _).bind fun _ => ?_
      refine (uses_configure fun _ => by simp).bind fun _ => ?_
      refine (uses_ep0Read (fun _ _ => by simp) _).bind fun _ => ?_
      exact uses_spawnEpThreads (fun _ _ => by simp) _
    obtain ⟨inside, all⟩ := enables_enableEndpoints run
    rw [enables_append, enables_eq_nil (quiet.after others).1, List.append_nil]
    exact ⟨inside, fun succeed => (all ((ioctlsSucceed_append ..).mp succeed).1).1⟩

/-! ## Requests that succeed -/

/-- The iteration handles `ctrl`, to which the device replies with success. -/
def Answered (ctrl : UsbCtrlRequest) (resp : RetSubmit) (es : Trace) : Prop :=
  ∃ first request rest, es = first :: ⟨.submit request, .ok resp⟩ :: rest ∧
    eventOf [first] = some (.control ctrl) ∧ resp.status = 0

theorem configReply_of_answered {ctrl : UsbCtrlRequest} {resp : RetSubmit} {es : Trace}
    (h : Answered ctrl resp es) :
    configReply es = if ctrl.IsIn ∧ ctrl.Caches then some resp.data else none := by
  obtain ⟨first, request, rest, rfl, hevent, success⟩ := h
  simp [configReply, hevent, success]

/-- A successful reply with this data. -/
def success (data : List UInt8) : RetSubmit := ⟨1, 0, UInt32.ofNat data.length, data, .in⟩

/-- The host sends `ctrl`, the device replies with `data`, and every ioctl succeeds. -/
def serving (ctrl : UsbCtrlRequest) (data : List UInt8) : ∀ o, Reply o
  | .submit _ => .ok (success data)
  | .ioctl (.eventFetch _) => System.fetchedControl ctrl
  | .ioctl _ => System.done
  | .spawn _ => (0 : ℕ)
  | .join _ => ()

/-- The trace of that iteration. -/
def served (ctrl : UsbCtrlRequest) (data : List UInt8) (vars : LoopState) : Trace :=
  ((mainLoop vars).answer (serving ctrl data)).1

theorem fetchedControl_succeeds (ctrl : UsbCtrlRequest) :
    (System.fetchedControl ctrl).Succeeds := (by decide : ¬ (0 : Int32) < 0)

theorem ofBuf_fetchedControl (ctrl : UsbCtrlRequest) :
    Event.ofBuf (overwrite eventFetchBuf (System.fetchedControl ctrl).written) = .control ctrl := by
  have buf : overwrite eventFetchBuf (System.fetchedControl ctrl).written =
      [2, 0, 0, 0, 8, 0, 0, 0] ++ UsbCtrlRequest.format.put ctrl := rfl
  rw [buf]
  show Event.control (UsbCtrlRequest.format.get (UsbCtrlRequest.format.put ctrl)) = _
  rw [UsbCtrlRequest.format.get_put]

theorem eventOf_fetchedControl (ctrl : UsbCtrlRequest) :
    eventOf [⟨.ioctl (.eventFetch eventFetchBuf), System.fetchedControl ctrl⟩] =
      some (.control ctrl) := by
  rw [eventOf, if_pos (fetchedControl_succeeds ctrl), ofBuf_fetchedControl]

theorem served_eq (ctrl : UsbCtrlRequest) (data : List UInt8) (vars : LoopState) :
    served ctrl data vars = ⟨.ioctl (.eventFetch eventFetchBuf), System.fetchedControl ctrl⟩ ::
      ((handleControl ctrl vars).answer (serving ctrl data)).1 := by
  have fetched : ¬ (System.fetchedControl ctrl).ret < 0 := fetchedControl_succeeds ctrl
  unfold served mainLoop eventFetch
  simp only [rawIoctl_bind, op_bind, answer, serving, if_neg fetched, ofResult_ok_bind, pure_eq,
    done_ok_bind, ofBuf_fetchedControl, handleEvent]

theorem served_answered {ctrl : UsbCtrlRequest} (data : List UInt8) (vars : LoopState)
    (h : dispatch ctrl = .controlIn ∨ dispatch ctrl = .setConfiguration ∨
      dispatch ctrl = .controlOutNoData) :
    Answered ctrl (success data) (served ctrl data vars) := by
  obtain ⟨rest, hrest, _⟩ := handleControl_submit vars h
  rw [served_eq, hrest]
  exact ⟨_, _, _, rfl, eventOf_fetchedControl ctrl, rfl⟩

theorem served_succeeds (ctrl : UsbCtrlRequest) (data : List UInt8) (vars : LoopState) :
    IoctlsSucceed (served ctrl data vars) := by
  rintro ⟨o, reply⟩ he
  obtain rfl : reply = serving ctrl data o := reply_of_mem_answer he
  cases o with
  | ioctl call => cases call <;> exact (by decide : ¬ (0 : Int32) < 0)
  | _ => trivial

/-! ## Selecting a configuration -/

/-- A configuration descriptor together with the descriptors that belong to it,
as long as its `wTotalLength` says. -/
structure CompleteConfig (value : UInt8) (configData : List UInt8) : Prop where
  long : 9 ≤ configData.length
  total : (Bytes.u16le.get ((configData.drop 2).take 2)).toNat = configData.length
  value : configData[5]? = some value

/-- The host reads `configData` by GET_DESCRIPTOR(CONFIGURATION). -/
def ReadsConfiguration (value : UInt8) (configData : List UInt8) (es : Trace) : Prop :=
  CompleteConfig value configData ∧ ∃ ctrl resp, Answered ctrl resp es ∧
    ctrl.bRequestType = usbDirIn ∧ ctrl.bRequest = usbReqGetDescriptor ∧
    ctrl.wValue >>> 8 = 0x02 ∧ resp.data = configData

/-- The device accepts SET_CONFIGURATION with this value. -/
def AcceptsConfiguration (value : UInt8) (es : Trace) : Prop :=
  ∃ ctrl resp, Answered ctrl resp es ∧ ctrl.IsSetConfiguration ∧ ctrl.wValue = value.toUInt16

/-- SET_CONFIGURATION with this value enables the endpoints of `configData`, all
of them unless an ioctl fails. -/
def Selects (value : UInt8) (configData : List UInt8) (vars : LoopState) : Prop :=
  ∀ es r, Runs (mainLoop vars) es r → AcceptsConfiguration value es →
    enables es <+: parseEndpointDescriptors configData ∧
      (IoctlsSucceed es → enables es = parseEndpointDescriptors configData)

theorem configReply_of_reads {value : UInt8} {configData : List UInt8} {es : Trace}
    (reads : ReadsConfiguration value configData es) :
    configReply es = some configData ∧ ¬ Resets es := by
  obtain ⟨_, ctrl, resp, answered, type, number, config, rfl⟩ := reads
  have isIn : ctrl.IsIn := by simp [UsbCtrlRequest.IsIn, type, usbDirIn]
  refine ⟨(configReply_of_answered answered).trans (if_pos ⟨isIn, number, config⟩), ?_⟩
  obtain ⟨first, request, rest, rfl, hevent, _⟩ := answered
  simp [Resets, eventOf_cons first, hevent]

theorem dispatch_of_isSetConfiguration {ctrl : UsbCtrlRequest} (h : ctrl.IsSetConfiguration) :
    dispatch ctrl = .setConfiguration := by
  obtain ⟨type, number, empty⟩ := h
  exact (dispatch_setConfiguration_iff ctrl).mpr
    ⟨number, by simp [UsbCtrlRequest.IsIn, type], empty⟩

/-- The endpoints enabled are those of the cached descriptor. -/
theorem enables_of_accepts {value : UInt8} {configData : List UInt8} {vars : LoopState}
    {es : Trace} {r : Except IoError LoopState} (cached : vars.cachedConfigDesc = some configData)
    (run : Runs (mainLoop vars) es r) (accepts : AcceptsConfiguration value es) :
    enables es <+: parseEndpointDescriptors configData ∧
      (IoctlsSucceed es → enables es = parseEndpointDescriptors configData) := by
  obtain ⟨ctrl, resp, ⟨first, request, rest, rfl, hevent, accepted⟩, selecting, _⟩ := accepts
  have h := dispatch_of_isSetConfiguration selecting
  obtain ⟨_, _, same, ⟨failed, _⟩ | ⟨event, hevent', handled⟩⟩ := runs_mainLoop run
  · obtain ⟨rfl, rfl⟩ := List.cons.inj same
    cases failed.symm.trans hevent
  · obtain ⟨rfl, rfl⟩ := List.cons.inj same
    obtain rfl : event = .control ctrl := Option.some.inj (hevent'.symm.trans hevent)
    have inside := enables_setConfiguration h cached handled accepted
    have fetched : enables (first :: ⟨.submit request, .ok resp⟩ :: rest) = enables rest := by
      obtain ⟨o, reply⟩ := first
      cases o with
      | ioctl call => cases call <;> first | rfl | cases hevent
      | _ => cases hevent
    rw [fetched]
    exact ⟨inside.1, fun succeed => inside.2 fun e he =>
      succeed e (List.mem_cons_of_mem _ (List.mem_cons_of_mem _ he))⟩

/-- What the cache holds decides which endpoints are enabled. -/
theorem selects_iff {value : UInt8} {configData data : List UInt8} {vars : LoopState}
    (cached : vars.cachedConfigDesc = some data) : Selects value configData vars ↔
      parseEndpointDescriptors data = parseEndpointDescriptors configData := by
  constructor
  · intro selects
    let ctrl : UsbCtrlRequest := ⟨0, usbReqSetConfiguration, value.toUInt16, 0, 0⟩
    have selecting : ctrl.IsSetConfiguration := ⟨rfl, rfl, rfl⟩
    have answered :=
      served_answered [] vars (.inr (.inl (dispatch_of_isSetConfiguration selecting)))
    have accepts : AcceptsConfiguration value (served ctrl [] vars) :=
      ⟨ctrl, _, answered, selecting, rfl⟩
    have run := runs_answer (serving ctrl []) (mainLoop vars)
    have succeed := served_succeeds ctrl [] vars
    exact ((enables_of_accepts cached run accepts).2 succeed).symm.trans
      ((selects _ _ run accepts).2 succeed)
  · intro same es r run accepts
    rw [← same]
    exact enables_of_accepts cached run accepts

theorem serves_controlIn {ctrl : UsbCtrlRequest} {data : List UInt8} (vars : LoopState)
    (h : dispatch ctrl = .controlIn) (caches : ctrl.Caches) (fits : data.length ≤ ep0BufSize) :
    Runs (mainLoop vars) (served ctrl data vars) (.ok { vars with cachedConfigDesc := data }) := by
  have fetched : ¬ (System.fetchedControl ctrl).ret < 0 := fetchedControl_succeeds ctrl
  have written : ¬ System.done.ret < 0 := by decide
  have result : ((mainLoop vars).answer (serving ctrl data)).2 =
      .ok { vars with cachedConfigDesc := data } := by
    unfold mainLoop eventFetch
    simp only [rawIoctl_bind, op_bind, answer, serving, if_neg fetched, ofResult_ok_bind, pure_eq,
      done_ok_bind, ofBuf_fetchedControl, handleEvent, handleControl, h, handleControlIn,
      submit_bind, success, if_true, caches, ep0Write, if_neg (Nat.not_lt.mpr fits), written,
      if_false]
  exact result ▸ runs_answer (serving ctrl data) (mainLoop vars)

/-- Configuration 1 is read, to be selected after another request. -/
def readFirst : Trace := served (System.getConfigDescriptor 25) System.configDescriptor ⟨none, []⟩

theorem readFirst_reads : ReadsConfiguration 1 System.configDescriptor readFirst :=
  ⟨⟨by decide, by decide, by decide⟩, _, _, served_answered _ _ (.inl (by decide)), by decide⟩

theorem history_readFirst {ctrl : UsbCtrlRequest} {data : List UInt8}
    (h : dispatch ctrl = .controlIn) (caches : ctrl.Caches) (fits : data.length ≤ ep0BufSize) :
    Iterates mainLoop ⟨none, []⟩
      [readFirst, served ctrl data ⟨some System.configDescriptor, []⟩] ⟨some data, []⟩ :=
  .next (.next .start (serves_controlIn _ (by decide) (by decide) (by decide)))
    (serves_controlIn _ h caches fits)

/-- The complete descriptor is used until another reply with other endpoints is
taken for a configuration descriptor. -/
theorem configuration_selected_iff {before after : List Trace} {read : Trace} {vars : LoopState}
    {value : UInt8} {configData : List UInt8}
    (history : Iterates mainLoop ⟨none, []⟩ (before ++ read :: after) vars)
    (reads : ReadsConfiguration value configData read) (since : ∀ es ∈ after, ¬ Resets es) :
    Selects value configData vars ↔ ∀ data, (after.filterMap configReply).getLast? = some data →
      parseEndpointDescriptors data = parseEndpointDescriptors configData := by
  obtain ⟨reply, noReset⟩ := configReply_of_reads reads
  have cached : vars.cachedConfigDesc =
      (after.filterMap configReply).getLast?.or (some configData) := by
    rw [cache_of_history history, List.foldl_append, List.foldl_cons, foldl_cacheAfter since,
      cacheAfter, if_neg noReset, reply, Option.some_or]
  cases last : (after.filterMap configReply).getLast? with
  | none =>
    rw [last] at cached
    simp [selects_iff cached]
  | some data =>
    rw [last] at cached
    simp [selects_iff cached]

/-- A second whole read does no harm. -/
theorem configuration_selected_iff_reread : Selects 1 System.configDescriptor
    ⟨some System.configDescriptor, []⟩ :=
  (@configuration_selected_iff [] _ readFirst _ _ _
    (@history_readFirst (System.getConfigDescriptor 255) _ (by decide) (by decide) (by decide))
    readFirst_reads (by decide)).mpr (by decide)

/-- After configuration 1 is read, the reply to another request takes its place. -/
def Replaced (ctrl : UsbCtrlRequest) (data : List UInt8) : Prop :=
  let other := served ctrl data ⟨some System.configDescriptor, []⟩
  ReadsConfiguration 1 System.configDescriptor readFirst ∧ ¬ Resets other ∧
    ∃ vars, Iterates mainLoop ⟨none, []⟩ [readFirst, other] vars ∧
      ¬ Selects 1 System.configDescriptor vars

theorem replaced_of {ctrl : UsbCtrlRequest} {data : List UInt8} (h : dispatch ctrl = .controlIn)
    (caches : ctrl.Caches) (fits : data.length ≤ ep0BufSize)
    (differ : parseEndpointDescriptors data ≠ parseEndpointDescriptors System.configDescriptor) :
    Replaced ctrl data := by
  refine ⟨readFirst_reads, ?_, _, history_readFirst h caches fits, fun selects => ?_⟩
  · obtain ⟨first, request, rest, hserved, hevent, _⟩ :=
      served_answered data ⟨some System.configDescriptor, []⟩ (.inl h)
    simp [hserved, Resets, eventOf_cons first, hevent]
  · exact differ ((selects_iff rfl).mp selects)

/-- The first nine bytes of the same descriptor, a read of a configuration
without endpoints, and a vendor request. -/
theorem configuration_replaced :
    Replaced (System.getConfigDescriptor 9) (System.configDescriptor.take 9) ∧
      Replaced ⟨0x80, 0x06, 0x0201, 0, 18⟩
        ([9, 2, 18, 0, 1, 2, 0, 0x80, 50] ++ [9, 4, 0, 0, 0, 3, 0, 0, 0]) ∧
      Replaced ⟨0xc0, 0x06, 0x0200, 0, 2⟩ [1, 0] :=
  ⟨replaced_of (by decide) (by decide) (by decide) (by decide),
    replaced_of (by decide) (by decide) (by decide) (by decide),
    replaced_of (by decide) (by decide) (by decide) (by decide)⟩

end UsbipDevirt
