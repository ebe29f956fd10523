import UsbipDevirt.ConfigCache

/-!
# One completion for every control request

The kernel expects each control request to be completed by one operation on
endpoint 0: data or a stall for an IN request, an acknowledgement or a stall
for an OUT request. Two checks of the bridge make it give up instead: a reply
that does not fit the buffer of `ep0_write`, and a SET_CONFIGURATION that was
accepted before any configuration descriptor was read.
-/

namespace UsbipDevirt

open Program Program.Prog RawGadgetDevice

/-! ## Operations on endpoint 0 -/

def Op.ep0 : Op → Option Ioctl
  | .ioctl (.ep0Write header data) => some (.ep0Write header data)
  | .ioctl (.ep0Read header) => some (.ep0Read header)
  | .ioctl .ep0Stall => some .ep0Stall
  | _ => none

/-- The operations on endpoint 0 in a trace. -/
def ep0Ops (es : Trace) : List Ioctl := es.filterMap fun e => e.op.ep0

@[simp] theorem ep0Ops_append (es fs : Trace) : ep0Ops (es ++ fs) = ep0Ops es ++ ep0Ops fs :=
  List.filterMap_append

/-- The replies that `submit` has returned in a trace. -/
def replies (es : Trace) : List RetSubmit := es.filterMap fun e =>
  match e with
  | ⟨.submit _, .ok resp⟩ => some resp
  | _ => none

@[simp] theorem replies_append (es fs : Trace) : replies (es ++ fs) = replies es ++ replies fs :=
  List.filterMap_append

theorem ep0Ops_cons (e : Program.Event Reply) (es : Trace) :
    ep0Ops (e :: es) = e.op.ep0.toList ++ ep0Ops es := by
  rw [ep0Ops, List.filterMap_cons]
  cases e.op.ep0 <;> rfl

/-- Every `submit` of a trace returns a reply. -/
def Delivered (es : Trace) : Prop := ∀ e ∈ es, match e with
  | ⟨.submit _, .error _⟩ => False
  | _ => True

/-! ## What a routine does to endpoint 0 -/

/-- If every ioctl succeeds, the routine returns, with these operations on
endpoint 0 and no call of `submit`. -/
def Performs {α : Type} (p : Routine α) (calls : List Ioctl) : Prop :=
  ∀ es r, Runs p es r → IoctlsSucceed es →
    ep0Ops es = calls ∧ replies es = [] ∧ ∃ a, r = .ok a

section Performs

variable {α β : Type}

theorem performs_return (a : α) : Performs (return a : Routine α) [] := by
  intro es r run _
  obtain ⟨rfl, rfl⟩ := runs_done_iff.mp run
  exact ⟨rfl, rfl, a, rfl⟩

theorem Performs.bind {p : Routine α} {f : α → Routine β} {calls more : List Ioctl}
    (hp : Performs p calls) (hf : ∀ a, Performs (f a) more) :
    Performs (p >>= f) (calls ++ more) := by
  intro es r run succeed
  rcases runs_bind_iff.mp run with ⟨e, failed, rfl⟩ | ⟨a, first, rest, rfl, begun, ended⟩
  · obtain ⟨_, _, _, ⟨⟩⟩ := hp es _ failed succeed
  · obtain ⟨firstSucceed, restSucceed⟩ := (ioctlsSucceed_append ..).mp succeed
    obtain ⟨ops, quiet, _⟩ := hp first _ begun firstSucceed
    obtain ⟨moreOps, moreQuiet, returned⟩ := hf a rest r ended restSucceed
    exact ⟨by rw [ep0Ops_append, ops, moreOps], by rw [replies_append, quiet, moreQuiet]; rfl,
      returned⟩

/-- What is asked for by `?` after an ioctl. -/
theorem performs_ioctl {call : Ioctl} {f : IoctlReply → Routine α} {more : List Ioctl}
    (hf : ∀ reply, Performs (f reply) more) :
    Performs (rawIoctl call >>= fun result => ofResult result >>= f)
      ((Op.ioctl call).ep0.toList ++ more) := by
  intro es r run succeed
  simp only [rawIoctl_bind, runs_op_iff] at run
  obtain ⟨reply, tail, rfl, rest⟩ := run
  obtain ⟨success, restSucceed⟩ := (ioctlsSucceed_cons_ioctl ..).mp succeed
  rw [if_neg success] at rest
  obtain ⟨ops, quiet, returned⟩ := hf reply tail r rest restSucceed
  refine ⟨?_, quiet, returned⟩
  rw [ep0Ops_cons, ops]

theorem performs_ep0Read (buf : List UInt8) :
    Performs (ep0Read buf) [.ep0Read (ep0Header (ep0ReadLen buf.length))] :=
  performs_ioctl fun _ => performs_return _

theorem performs_ep0Stall : Performs ep0Stall [.ep0Stall] :=
  performs_ioctl fun _ => performs_return _

theorem performs_ep0Write {data : List UInt8} (fits : data.length ≤ ep0BufSize) :
    Performs (ep0Write data) [.ep0Write (ep0Header data.length) (ep0WriteBuf data)] := by
  unfold ep0Write
  rw [if_neg (Nat.not_lt.mpr fits)]
  exact performs_ioctl fun _ => performs_return _

theorem performs_configure : Performs configure [] := performs_ioctl fun _ => performs_return _

theorem performs_drawPower (configData : List UInt8) : Performs (drawPower configData) [] := by
  unfold drawPower
  split
  · exact performs_ioctl fun _ => performs_return _
  · exact performs_return _

theorem performs_enableEndpoints (descs : List UsbEndpointDescriptor) :
    Performs (enableEndpoints descs) [] := by
  induction descs with
  | nil => exact performs_return _
  | cons desc descs ih =>
    have enabled : Performs (epEnable desc) [] := performs_ioctl fun _ => performs_return _
    exact enabled.bind fun _ => ih.bind fun _ => performs_return _

theorem performs_spawnEpThreads (workers : List Worker) : Performs (spawnEpThreads workers) [] := by
  induction workers with
  | nil => exact performs_return _
  | cons worker workers ih =>
    have spawned : Performs (spawn worker) [] := by
      intro es r run _
      obtain ⟨thread, rest, rfl, ended⟩ := runs_op_iff.mp run
      obtain ⟨rfl, rfl⟩ := runs_done_iff.mp ended
      exact ⟨rfl, rfl, thread, rfl⟩
    exact spawned.bind fun _ => ih.bind fun _ => performs_return _

/-- An accepted configuration is activated completely and acknowledged once. -/
theorem performs_activate (configData : List UInt8) :
    Performs (activate configData) [.ep0Read (ep0Header 0)] :=
  (performs_enableEndpoints _).bind fun _ => (performs_drawPower _).bind fun _ =>
    performs_configure.bind fun _ => (performs_ep0Read _).bind fun _ => performs_spawnEpThreads _

end Performs

/-! ## Completion -/

/-- The completions that fit a request. -/
def Fitting (ctrl : UsbCtrlRequest) : Ioctl → Prop
  | .ep0Write _ _ => ctrl.IsIn
  | .ep0Read _ => ¬ ctrl.IsIn
  | .ep0Stall => True
  | _ => False

/-- The reply does not fit the buffer of `ep0_write`. -/
def TooLarge (ctrl : UsbCtrlRequest) (es : Trace) : Prop :=
  ctrl.IsIn ∧ ∃ resp ∈ replies es, resp.status = 0 ∧ ep0BufSize < resp.data.length

/-- SET_CONFIGURATION is accepted and no configuration descriptor was read. -/
def Unprepared (ctrl : UsbCtrlRequest) (s : LoopState) (es : Trace) : Prop :=
  dispatch ctrl = .setConfiguration ∧ s.cachedConfigDesc = none ∧
    ∃ resp ∈ replies es, resp.status = 0

/-- The request is completed by one operation that fits it, and the loop goes on. -/
structure Completed (ctrl : UsbCtrlRequest) (es : Trace) (r : Except IoError LoopState) : Prop where
  once : ∃ call, ep0Ops es = [call] ∧ Fitting ctrl call
  continues : ∃ s', r = .ok s'
  whole : ctrl.IsIn → ∀ resp ∈ replies es, resp.status = 0 → ∃ header buf,
    ep0Ops es = [.ep0Write header buf] ∧ buf.take header.length.toNat = resp.data

/-! ## What each handler does -/

/-- A handler that submits no more has had one reply. -/
theorem replies_of_performs {p : Routine LoopState} {calls : List Ioctl} {es : Trace}
    {r : Except IoError LoopState} (performs : Performs p calls) (run : Runs p es r)
    (succeed : IoctlsSucceed es) (request : UrbRequest) (resp : RetSubmit) :
    replies (⟨.submit request, .ok resp⟩ :: es) = [resp] :=
  congrArg (resp :: ·) (performs es r run succeed).2.1

/-- The kernel is handed the whole data. -/
theorem take_ep0WriteBuf {data : List UInt8} (fits : data.length ≤ ep0BufSize) :
    (ep0WriteBuf data).take (ep0Header data.length).length.toNat = data := by
  have small : data.length < 2 ^ 32 := Nat.lt_of_le_of_lt fits (by decide)
  have length : (ep0Header data.length).length.toNat = data.length :=
    UInt32.toNat_ofNat_of_lt' small
  rw [length, ep0WriteBuf, List.take_left]

/-- After a reply, the rest of a handler completes the request. -/
theorem completed_of_performs {ctrl : UsbCtrlRequest} {request : UrbRequest} {resp : RetSubmit}
    {p : Routine LoopState} {call : Ioctl} {es : Trace} {r : Except IoError LoopState}
    (performs : Performs p [call]) (run : Runs p es r) (succeed : IoctlsSucceed es)
    (fits : Fitting ctrl call) (whole : ctrl.IsIn → resp.status = 0 →
      ∃ header buf, call = .ep0Write header buf ∧ buf.take header.length.toNat = resp.data) :
    Completed ctrl (⟨.submit request, .ok resp⟩ :: es) r := by
  obtain ⟨ops, _, continues⟩ := performs es r run succeed
  have ops : ep0Ops (⟨.submit request, .ok resp⟩ :: es) = [call] := ops
  have replied := replies_of_performs performs run succeed request resp
  refine ⟨⟨call, ops, fits⟩, continues, fun isIn resp' mem success => ?_⟩
  rw [replied] at mem
  obtain rfl := List.mem_singleton.mp mem
  obtain ⟨header, buf, rfl, same⟩ := whole isIn success
  exact ⟨header, buf, ops, same⟩

/-- A call of `submit` that returns a reply. -/
theorem runs_submit {α : Type} {request : UrbRequest} {k : Except IoError RetSubmit → Routine α}
    {es : Trace} {r : Except IoError α} (run : Runs (.op (.submit request) k) es r)
    (succeed : IoctlsSucceed es) (delivered : Delivered es) : ∃ resp rest,
      es = ⟨.submit request, .ok resp⟩ :: rest ∧
      Runs (k (.ok resp)) rest r ∧ IoctlsSucceed rest := by
  obtain ⟨answer, rest, rfl, hrest⟩ := runs_op_iff.mp run
  rw [ioctlsSucceed_cons_submit] at succeed
  cases answer with
  | error e => exact (delivered ⟨.submit request, .error e⟩ (by simp)).elim
  | ok resp => exact ⟨resp, rest, rfl, hrest, succeed⟩

section Handlers

variable {ctrl : UsbCtrlRequest} {s : LoopState} {es : Trace} {r : Except IoError LoopState}

theorem completed_setAddress (h : dispatch ctrl = .setAddress) (out : ¬ ctrl.IsIn)
    (run : Runs (handleControl ctrl s) es r) (succeed : IoctlsSucceed es) :
    Completed ctrl es r := by
  rw [handleControl_of_setAddress h] at run
  have performs := (performs_ep0Read []).bind fun _ => performs_return s
  obtain ⟨ops, _, continues⟩ := performs es r run succeed
  exact ⟨⟨_, ops, out⟩, continues, fun isIn => absurd isIn out⟩

theorem completed_outWithData (h : dispatch ctrl = .controlOutWithData)
    (run : Runs (handleControl ctrl s) es r) (succeed : IoctlsSucceed es)
    (delivered : Delivered es) : Completed ctrl es r := by
  have out := isOut_of_dispatch (.inr (.inl h))
  rw [handleControl_of_outWithData h] at run
  rw [handleControlOutWithData, bind_assoc_prog] at run
  obtain ⟨reply, tail, rfl, rest⟩ := (runs_ep0Read_bind succeed).mp run
  have deliveredTail : Delivered tail := fun e he => delivered e (List.mem_cons_of_mem _ he)
  obtain ⟨resp, last, rfl, ended, _⟩ :=
    runs_submit rest ((ioctlsSucceed_cons_ioctl ..).mp succeed).2 deliveredTail
  obtain ⟨rfl, rfl⟩ := runs_done_iff.mp ended
  exact ⟨⟨_, rfl, out⟩, ⟨_, rfl⟩, fun isIn => absurd isIn out⟩

theorem completed_outNoData (h : dispatch ctrl = .controlOutNoData)
    (run : Runs (handleControl ctrl s) es r) (succeed : IoctlsSucceed es)
    (delivered : Delivered es) : Completed ctrl es r := by
  have out := isOut_of_dispatch (.inr (.inr h))
  rw [handleControl_of_outNoData h] at run
  obtain ⟨resp, rest, rfl, ended, restSucceed⟩ := runs_submit run succeed delivered
  have ended : Runs ((if resp.status = 0 then do
      let _ ← ep0Read []
      else ep0Stall) >>= fun _ => return s) rest r := ended
  by_cases success : resp.status = 0
  · rw [if_pos success] at ended
    have performs := ((performs_ep0Read []).bind fun _ => performs_return ()).bind fun _ =>
      performs_return s
    exact completed_of_performs performs ended restSucceed out fun isIn => absurd isIn out
  · rw [if_neg success] at ended
    have performs := performs_ep0Stall.bind fun _ => performs_return s
    exact completed_of_performs performs ended restSucceed trivial fun isIn => absurd isIn out

/-- An IN request is completed unless the reply is too large. -/
theorem completed_controlIn (h : dispatch ctrl = .controlIn)
    (run : Runs (handleControl ctrl s) es r) (succeed : IoctlsSucceed es)
    (delivered : Delivered es) : (TooLarge ctrl es ∧ ep0Ops es = [] ∧
      ∃ resp ∈ replies es, r = .error (ep0WriteTooLarge resp.data.length)) ∨
    (¬ TooLarge ctrl es ∧ Completed ctrl es r) := by
  have isIn := isIn_of_dispatch h
  rw [handleControl_of_controlIn h] at run
  obtain ⟨resp, rest, rfl, ended, restSucceed⟩ := runs_submit run succeed delivered
  have ended : Runs ((if resp.status = 0 then do
        ep0Write resp.data
        return (if ctrl.Caches then some resp.data else s.cachedConfigDesc)
      else do
        ep0Stall
        return s.cachedConfigDesc) >>= fun cache => return { s with cachedConfigDesc := cache })
      rest r := ended
  by_cases success : resp.status = 0
  · rw [if_pos success] at ended
    by_cases fits : resp.data.length ≤ ep0BufSize
    · right
      have performs := ((performs_ep0Write fits).bind fun _ => performs_return
        (if ctrl.Caches then some resp.data else s.cachedConfigDesc)).bind fun cache =>
          performs_return { s with cachedConfigDesc := cache }
      have replied := replies_of_performs performs ended restSucceed
      refine ⟨?_, completed_of_performs performs ended restSucceed isIn fun _ _ =>
        ⟨_, _, rfl, take_ep0WriteBuf fits⟩⟩
      rintro ⟨_, resp', mem, _, large⟩
      obtain rfl := List.mem_singleton.mp (replied _ _ ▸ mem)
      omega
    · left
      unfold ep0Write at ended
      rw [if_pos (Nat.lt_of_not_le fits)] at ended
      obtain ⟨rfl, rfl⟩ := runs_done_iff.mp ended
      exact ⟨⟨isIn, resp, by simp [replies], success, Nat.lt_of_not_le fits⟩, rfl, resp,
        by simp [replies], rfl⟩
  · right
    rw [if_neg success] at ended
    have performs := (performs_ep0Stall.bind fun _ => performs_return s.cachedConfigDesc).bind
      fun cache => performs_return { s with cachedConfigDesc := cache }
    have replied := replies_of_performs performs ended restSucceed
    refine ⟨?_, completed_of_performs performs ended restSucceed trivial fun _ zero =>
      absurd zero success⟩
    rintro ⟨_, resp', mem, zero, _⟩
    obtain rfl := List.mem_singleton.mp (replied _ _ ▸ mem)
    exact success zero

/-- SET_CONFIGURATION is completed unless it is accepted unprepared. -/
theorem completed_setConfiguration (h : dispatch ctrl = .setConfiguration)
    (run : Runs (handleControl ctrl s) es r) (succeed : IoctlsSucceed es)
    (delivered : Delivered es) :
    (Unprepared ctrl s es ∧ ep0Ops es = [] ∧ r = .error noCachedDescriptor) ∨
      (¬ Unprepared ctrl s es ∧ Completed ctrl es r) := by
  have out := isOut_of_dispatch (.inl h)
  rw [handleControl_of_setConfiguration h] at run
  obtain ⟨resp, rest, rfl, ended, restSucceed⟩ := runs_submit run succeed delivered
  have ended : Runs ((if resp.status ≠ 0 then do
        ep0Stall
        return s.epThreads
      else ofResult (s.cachedConfigDesc.elim (.error noCachedDescriptor) .ok) >>= activate) >>=
        fun threads => return { s with epThreads := threads }) rest r := ended
  by_cases success : resp.status = 0
  · rw [if_neg (not_not.mpr success)] at ended
    cases cached : s.cachedConfigDesc with
    | none =>
      left
      rw [cached] at ended
      obtain ⟨rfl, rfl⟩ := runs_done_iff.mp ended
      exact ⟨⟨h, cached, resp, by simp [replies], success⟩, rfl, rfl⟩
    | some configData =>
      right
      rw [cached] at ended
      have performs := (performs_activate configData).bind fun threads =>
        performs_return (⟨some configData, threads⟩ : LoopState)
      refine ⟨fun unprepared => ?_, completed_of_performs performs ended restSucceed out
        fun isIn => absurd isIn out⟩
      cases cached.symm.trans unprepared.2.1
  · right
    rw [if_pos success] at ended
    have performs := (performs_ep0Stall.bind fun _ => performs_return s.epThreads).bind
      fun threads => performs_return { s with epThreads := threads }
    have replied := replies_of_performs performs ended restSucceed
    refine ⟨?_, completed_of_performs performs ended restSucceed trivial
      fun isIn => absurd isIn out⟩
    rintro ⟨_, _, resp', mem, zero⟩
    obtain rfl := List.mem_singleton.mp (replied _ _ ▸ mem)
    exact success zero

end Handlers

/-! ## The event loop -/

/-- A fetched event comes from a call that is neither on endpoint 0 nor `submit`. -/
theorem fetch_of_eventOf {first : Program.Event Reply} {event : Event}
    (h : eventOf [first] = some event) :
    ∃ buf reply, first = ⟨.ioctl (.eventFetch buf), reply⟩ := by
  obtain ⟨o, reply⟩ := first
  cases o with
  | ioctl call => cases call <;> first | exact ⟨_, _, rfl⟩ | cases h
  | _ => cases h

/-- How a request can end: given up for one of the two reasons, or completed. -/
structure ControlEnds (ctrl : UsbCtrlRequest) (s : LoopState) (es : Trace)
    (r : Except IoError LoopState) : Prop where
  tooLarge : TooLarge ctrl es → ep0Ops es = [] ∧
    ∃ resp ∈ replies es, r = .error (ep0WriteTooLarge resp.data.length)
  unprepared : Unprepared ctrl s es → ep0Ops es = [] ∧ r = .error noCachedDescriptor
  completed : ¬ TooLarge ctrl es → ¬ Unprepared ctrl s es → Completed ctrl es r

theorem handleControl_ends {ctrl : UsbCtrlRequest} {s : LoopState} {es : Trace}
    {r : Except IoError LoopState} (run : Runs (handleControl ctrl s) es r)
    (succeed : IoctlsSucceed es) (delivered : Delivered es)
    (direct : ¬ (ctrl.bRequest = usbReqSetAddress ∧ ctrl.IsIn)) : ControlEnds ctrl s es r := by
  have small (out : ¬ ctrl.IsIn) : ¬ TooLarge ctrl es := fun large => out large.1
  have other (h : dispatch ctrl ≠ .setConfiguration) : ¬ Unprepared ctrl s es :=
    fun unprepared => h unprepared.1
  have completes (out : ¬ ctrl.IsIn) (h : dispatch ctrl ≠ .setConfiguration)
      (completed : Completed ctrl es r) : ControlEnds ctrl s es r :=
    ⟨fun large => absurd large (small out), fun unprepared => absurd unprepared (other h),
      fun _ _ => completed⟩
  cases h : dispatch ctrl with
  | setAddress =>
    have out : ¬ ctrl.IsIn := fun isIn => direct ⟨(dispatch_setAddress_iff ctrl).mp h, isIn⟩
    exact completes out (by simp [h]) (completed_setAddress h out run succeed)
  | controlIn =>
    have other := other (by simp [h])
    rcases completed_controlIn h run succeed delivered with
      ⟨large, ops, failed⟩ | ⟨fits, completed⟩
    · exact ⟨fun _ => ⟨ops, failed⟩, fun h => absurd h other, fun h => absurd large h⟩
    · exact ⟨fun h => absurd h fits, fun h => absurd h other, fun _ _ => completed⟩
  | setConfiguration =>
    have small := small (isOut_of_dispatch (.inl h))
    rcases completed_setConfiguration h run succeed delivered with
      ⟨unprepared, ops, failed⟩ | ⟨prepared, completed⟩
    · exact ⟨fun h => absurd h small, fun _ => ⟨ops, failed⟩, fun _ h => absurd unprepared h⟩
    · exact ⟨fun h => absurd h small, fun h => absurd h prepared, fun _ _ => completed⟩
  | controlOutWithData =>
    exact completes (isOut_of_dispatch (.inr (.inl h))) (by simp [h])
      (completed_outWithData h run succeed delivered)
  | controlOutNoData =>
    exact completes (isOut_of_dispatch (.inr (.inr h))) (by simp [h])
      (completed_outNoData h run succeed delivered)

/-- Apart from requests with the number of SET_ADDRESS and the direction of an
IN request, every control request is completed by one fitting operation, after
which the loop goes on, unless the reply is too large or SET_CONFIGURATION is
accepted unprepared; then there is no completion and the loop is left with an
error. -/
theorem control_completed {ctrl : UsbCtrlRequest} {s : LoopState} {es : Trace}
    {r : Except IoError LoopState} (run : Runs (mainLoop s) es r)
    (event : eventOf es = some (.control ctrl)) (succeed : IoctlsSucceed es)
    (delivered : Delivered es) (direct : ¬ (ctrl.bRequest = usbReqSetAddress ∧ ctrl.IsIn)) :
    ControlEnds ctrl s es r := by
  obtain ⟨first, rest, rfl, ⟨failed, _⟩ | ⟨event', hevent, handled⟩⟩ := runs_mainLoop run
  · rw [eventOf_cons, failed] at event
    cases event
  · obtain rfl : event' = .control ctrl := by
      rw [eventOf_cons] at event
      exact Option.some.inj (hevent.symm.trans event)
    obtain ⟨buf, reply, rfl⟩ := fetch_of_eventOf hevent
    have ends := handleControl_ends handled ((ioctlsSucceed_cons_ioctl ..).mp succeed).2
      (fun e he => delivered e (List.mem_cons_of_mem _ he)) direct
    -- the fetch itself is neither on endpoint 0 nor a reply
    exact ⟨ends.tooLarge, ends.unprepared, fun large unprepared =>
      let completed := ends.completed large unprepared
      ⟨completed.once, completed.continues, completed.whole⟩⟩

theorem served_delivered (ctrl : UsbCtrlRequest) (data : List UInt8) (vars : LoopState) :
    Delivered (served ctrl data vars) := by
  rintro ⟨o, reply⟩ he
  obtain rfl : reply = serving ctrl data o := reply_of_mem_answer he
  cases o <;> trivial

/-- GET_DESCRIPTOR(CONFIGURATION), answered with 25 bytes. -/
theorem control_completed_read : ControlEnds (System.getConfigDescriptor 25) ⟨none, []⟩ readFirst
    ((mainLoop ⟨none, []⟩).answer
      (serving (System.getConfigDescriptor 25) System.configDescriptor)).2 :=
  control_completed (runs_answer _ _) (by decide) (served_succeeds _ _ _)
    (served_delivered _ _ _) (by decide)

/-- In an iteration for `ctrl` with this data as the reply, every ioctl succeeds
and the reply is delivered, but no operation on endpoint 0 takes place and the
loop is left with an error. -/
def GivesUp (ctrl : UsbCtrlRequest) (data : List UInt8) (e : IoError) : Prop :=
  let es := served ctrl data ⟨none, []⟩
  data.length ≤ ctrl.wLength.toNat ∧ Runs (mainLoop ⟨none, []⟩) es (.error e) ∧
    eventOf es = some (.control ctrl) ∧ IoctlsSucceed es ∧ Delivered es ∧ ep0Ops es = []

/-- A reply of 600 bytes to a request for as many, and a SET_CONFIGURATION
before the descriptor is read. -/
theorem control_given_up :
    GivesUp ⟨0x80, 0x06, 0x0300, 0, 600⟩ (List.replicate 600 0) (ep0WriteTooLarge 600) ∧
      GivesUp ⟨0, 0x09, 1, 0, 0⟩ [] noCachedDescriptor := by
  have ends {ctrl : UsbCtrlRequest} {data : List UInt8} {e : IoError}
      (h : ((mainLoop ⟨none, []⟩).answer (serving ctrl data)).2 = .error e) :
      Runs (mainLoop ⟨none, []⟩) (served ctrl data ⟨none, []⟩) (.error e) := h ▸ runs_answer _ _
  exact ⟨⟨by decide +kernel, ends (by decide +kernel), by decide +kernel, served_succeeds _ _ _,
      served_delivered _ _ _, by decide +kernel⟩,
    ⟨by decide +kernel, ends (by decide +kernel), by decide +kernel, served_succeeds _ _ _,
      served_delivered _ _ _, by decide +kernel⟩⟩

end UsbipDevirt
