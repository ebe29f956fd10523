import UsbipDevirt.EventLoop

/-!
# Forwarding control requests

Which control requests the event loop answers itself, which one it treats as
SET_CONFIGURATION, and which reach the remote device as they are. The tests of
`dispatch` look at the request number before the request type, so the numbers
5 and 9 are taken from class and vendor requests as well.
-/

namespace UsbipDevirt

open Program Program.Prog RawGadgetDevice

/-- The bytes that go into the CMD_SUBMIT are those the kernel delivered. -/
theorem ctrlToSetup_toList (ctrl : UsbCtrlRequest) :
    (ctrlToSetup ctrl).toList = UsbCtrlRequest.format.put ctrl := rfl

theorem ctrlToSetup_get {bytes : List UInt8} (h : bytes.length = 8) :
    (ctrlToSetup (UsbCtrlRequest.format.get bytes)).toList = bytes :=
  UsbCtrlRequest.format.put_get bytes h

/-! ## The choice of the handler -/

/-- What `dispatch` has found out about a request. -/
inductive Dispatched (ctrl : UsbCtrlRequest) : Handler → Prop where
  | setAddress (number : ctrl.bRequest = usbReqSetAddress) : Dispatched ctrl .setAddress
  | setConfiguration (number : ctrl.bRequest = usbReqSetConfiguration) (out : ¬ ctrl.IsIn)
      (empty : ctrl.wLength = 0) : Dispatched ctrl .setConfiguration
  | controlIn (other : ctrl.bRequest ≠ usbReqSetAddress) (isIn : ctrl.IsIn) :
      Dispatched ctrl .controlIn
  | controlOutWithData (other : ctrl.bRequest ≠ usbReqSetAddress) (out : ¬ ctrl.IsIn)
      (data : 0 < ctrl.wLength) : Dispatched ctrl .controlOutWithData
  | controlOutNoData (other : ctrl.bRequest ≠ usbReqSetAddress) (out : ¬ ctrl.IsIn)
      (empty : ¬ 0 < ctrl.wLength) : Dispatched ctrl .controlOutNoData

theorem dispatch_cases {ctrl : UsbCtrlRequest} {handler : Handler}
    (h : dispatch ctrl = handler) : Dispatched ctrl handler := by
  subst h
  unfold dispatch
  split_ifs with address configuration isIn data
  · exact .setAddress address
  · exact .setConfiguration configuration.1 configuration.2.1 configuration.2.2
  · exact .controlIn address isIn
  · exact .controlOutWithData address isIn data
  · exact .controlOutNoData address isIn data

theorem dispatch_setAddress_iff (ctrl : UsbCtrlRequest) :
    dispatch ctrl = .setAddress ↔ ctrl.bRequest = usbReqSetAddress := by
  constructor
  · intro h
    cases dispatch_cases h with
    | setAddress number => exact number
  · exact fun number => if_pos number

theorem dispatch_setConfiguration_iff (ctrl : UsbCtrlRequest) :
    dispatch ctrl = .setConfiguration ↔
      ctrl.bRequest = usbReqSetConfiguration ∧ ¬ ctrl.IsIn ∧ ctrl.wLength = 0 := by
  constructor
  · intro h
    cases dispatch_cases h with
    | setConfiguration number out empty => exact ⟨number, out, empty⟩
  · intro h
    have other : ctrl.bRequest ≠ usbReqSetAddress := by
      rw [h.1]
      decide
    rw [dispatch, if_neg other, if_pos h]

theorem isIn_of_dispatch {ctrl : UsbCtrlRequest} (h : dispatch ctrl = .controlIn) : ctrl.IsIn := by
  cases dispatch_cases h with
  | controlIn other isIn => exact isIn

theorem isOut_of_dispatch {ctrl : UsbCtrlRequest} (h : dispatch ctrl = .setConfiguration ∨
    dispatch ctrl = .controlOutWithData ∨ dispatch ctrl = .controlOutNoData) : ¬ ctrl.IsIn := by
  rcases h with h | h | h <;> cases dispatch_cases h <;> assumption

theorem noData_of_dispatch {ctrl : UsbCtrlRequest} (h : dispatch ctrl = .setConfiguration ∨
    dispatch ctrl = .controlOutNoData) : ctrl.wLength.toNat = 0 := by
  rcases h with h | h
  · cases dispatch_cases h with
    | setConfiguration number out empty =>
      rw [empty]
      rfl
  · cases dispatch_cases h with
    | controlOutNoData other out empty => simpa [UInt16.lt_iff_toNat_lt] using empty

section Handlers

variable {ctrl : UsbCtrlRequest}

theorem handleControl_of_setAddress (h : dispatch ctrl = .setAddress) (s : LoopState) :
    handleControl ctrl s = ep0Read [] >>= fun _ => return s := by
  rw [handleControl, h]

theorem handleControl_of_setConfiguration (h : dispatch ctrl = .setConfiguration)
    (s : LoopState) : handleControl ctrl s =
      handleSetConfiguration ctrl s >>= fun threads => return { s with epThreads := threads } := by
  rw [handleControl, h]

theorem handleControl_of_controlIn (h : dispatch ctrl = .controlIn) (s : LoopState) :
    handleControl ctrl s = handleControlIn ctrl s.cachedConfigDesc >>=
      fun cache => return { s with cachedConfigDesc := cache } := by
  rw [handleControl, h]

theorem handleControl_of_outWithData (h : dispatch ctrl = .controlOutWithData) (s : LoopState) :
    handleControl ctrl s = handleControlOutWithData ctrl >>= fun _ => return s := by
  rw [handleControl, h]

theorem handleControl_of_outNoData (h : dispatch ctrl = .controlOutNoData) (s : LoopState) :
    handleControl ctrl s = handleControlOutNoData ctrl >>= fun _ => return s := by
  rw [handleControl, h]

end Handlers

/-! ## What the handlers use -/

def NotSubmit (o : Op) : Prop := ∀ request, o ≠ .submit request

def NotEnable (o : Op) : Prop := ∀ desc, o ≠ .ioctl (.epEnable desc)

theorem uses_ofResult {P : Op → Prop} {α : Type} (r : Except IoError α) :
    Uses P (ofResult r : Routine α) := trivial

theorem uses_rawIoctl {P : Op → Prop} {call : Ioctl} (h : P (.ioctl call)) :
    Uses P (rawIoctl call) := by
  refine ⟨h, fun reply => ?_⟩
  dsimp only
  split <;> trivial

/-- The rest of a handler once its call has returned. -/
theorem uses_answered {P : Op → Prop} {α β γ : Type} (r : Except IoError α) {f : α → Routine β}
    {g : β → Routine γ} (hf : ∀ a, Uses P (f a)) (hg : ∀ b, Uses P (g b)) :
    Uses P (ofResult r >>= f >>= g) := ((uses_ofResult r).bind hf).bind hg

theorem uses_submit {P : Op → Prop} {request : UrbRequest} (h : P (.submit request)) :
    Uses P (submit request) := ⟨h, fun _ => trivial⟩

theorem uses_ep0Read {P : Op → Prop} (h : ∀ header, P (.ioctl (.ep0Read header)))
    (buf : List UInt8) : Uses P (ep0Read buf) :=
  (uses_rawIoctl (h _)).bind fun _ => (uses_ofResult _).bind fun _ => trivial

theorem uses_ep0Stall {P : Op → Prop} (h : P (.ioctl .ep0Stall)) : Uses P ep0Stall :=
  (uses_rawIoctl h).bind fun _ => (uses_ofResult _).bind fun _ => trivial

theorem uses_ep0Write {P : Op → Prop} (h : ∀ header data, P (.ioctl (.ep0Write header data)))
    (data : List UInt8) : Uses P (ep0Write data) := by
  unfold ep0Write
  split
  · exact uses_ofResult _
  · exact (uses_rawIoctl (h _ _)).bind fun _ => (uses_ofResult _).bind fun _ => trivial

theorem uses_epEnable {P : Op → Prop} (h : ∀ desc, P (.ioctl (.epEnable desc)))
    (desc : UsbEndpointDescriptor) : Uses P (epEnable desc) :=
  (uses_rawIoctl (h desc)).bind fun _ => (uses_ofResult _).bind fun _ => trivial

theorem uses_configure {P : Op → Prop} (h : P (.ioctl .configure)) : Uses P configure :=
  (uses_rawIoctl h).bind fun _ => (uses_ofResult _).bind fun _ => trivial

theorem uses_enableEndpoints {P : Op → Prop} (h : ∀ desc, P (.ioctl (.epEnable desc)))
    (descs : List UsbEndpointDescriptor) : Uses P (enableEndpoints descs) := by
  induction descs with
  | nil => trivial
  | cons desc descs ih => exact (uses_epEnable h desc).bind fun _ => ih.bind fun _ => trivial

theorem uses_spawnEpThreads {P : Op → Prop} (h : ∀ worker, P (.spawn worker))
    (workers : List Worker) : Uses P (spawnEpThreads workers) := by
  induction workers with
  | nil => trivial
  | cons worker workers ih =>
    exact Uses.bind ⟨h worker, fun _ => trivial⟩ fun _ => ih.bind fun _ => trivial

theorem uses_drawPower {P : Op → Prop} (h : ∀ power, P (.ioctl (.vbusDraw power)))
    (configData : List UInt8) : Uses P (drawPower configData) := by
  unfold drawPower
  split
  · exact (uses_rawIoctl (h _)).bind fun _ => (uses_ofResult _).bind fun _ => trivial
  · trivial

theorem uses_joinAll {P : Op → Prop} (h : ∀ thread, P (.join thread)) (threads : List ThreadId) :
    Uses P (joinAll threads) := by
  induction threads with
  | nil => trivial
  | cons thread threads ih => exact Uses.bind ⟨h thread, fun _ => trivial⟩ fun _ => ih

theorem uses_inIteration {P : Op → Prop} (w : Worker)
    (submit : P (.submit (w.request .in [] w.maxPacketSize)))
    (writes : ∀ header data, P (.ioctl (.epWrite header data))) : Uses P w.inIteration := by
  refine (uses_submit submit).bind fun reply => ?_
  split
  · trivial
  · split
    · trivial
    · refine (uses_rawIoctl (writes _ _)).bind fun written => ?_
      split <;> trivial

/-- A data thread transfers on its endpoint and submits. -/
theorem uses_iteration {P : Op → Prop} (submits : ∀ request, P (.submit request))
    (writes : ∀ header data, P (.ioctl (.epWrite header data)))
    (reads : ∀ header, P (.ioctl (.epRead header))) (w : Worker) (buf : List UInt8) :
    Uses P (w.iteration buf) := by
  unfold Worker.iteration
  split
  · exact (uses_inIteration w (submits _) writes).bind fun _ => trivial
  · refine Uses.bind ((uses_rawIoctl (reads _)).bind fun _ => trivial) fun read => ?_
    split
    · trivial
    · refine (uses_submit (submits _)).bind fun reply => ?_
      split
      · trivial
      · split <;> trivial

/-- What follows the reply to SET_CONFIGURATION. -/
theorem uses_setConfiguration {P : Op → Prop} (ioctls : ∀ call, P (.ioctl call))
    (spawns : ∀ worker, P (.spawn worker)) (s : LoopState) (resp : RetSubmit) :
    Uses P (do
      if resp.status ≠ 0 then
        ep0Stall
        return s.epThreads
      else
        let configData ← ofResult (s.cachedConfigDesc.elim (.error noCachedDescriptor) .ok)
        let epDescs := parseEndpointDescriptors configData
        let epHandles ← enableEndpoints epDescs
        drawPower configData
        configure
        let _ ← ep0Read []
        spawnEpThreads (epDescs.zipWith Worker.mk epHandles)) := by
  split
  · exact (uses_ep0Stall (ioctls _)).bind fun _ => trivial
  · refine (uses_ofResult _).bind fun configData => ?_
    refine (uses_enableEndpoints (fun _ => ioctls _) _).bind fun handles => ?_
    refine (uses_drawPower (fun _ => ioctls _) _).bind fun _ => ?_
    refine (uses_configure (ioctls _)).bind fun _ => ?_
    exact (uses_ep0Read (fun _ => ioctls _) _).bind fun _ => uses_spawnEpThreads spawns _

/-- The other requests are answered by ioctls on endpoint 0 and `submit`. -/
theorem uses_handleControl {P : Op → Prop} (submits : ∀ request, P (.submit request))
    (ioctls : ∀ call, (∀ desc, call ≠ .epEnable desc) → P (.ioctl call)) {ctrl : UsbCtrlRequest}
    (other : dispatch ctrl ≠ .setConfiguration) (s : LoopState) :
    Uses P (handleControl ctrl s) := by
  cases h : dispatch ctrl with
  | setAddress =>
    rw [handleControl_of_setAddress h]
    exact (uses_ep0Read (fun _ => ioctls _ nofun) _).bind fun _ => trivial
  | setConfiguration => exact absurd h other
  | controlIn =>
    rw [handleControl_of_controlIn h]
    refine Uses.bind ?_ fun _ => trivial
    refine (uses_submit (submits _)).bind fun reply => (uses_ofResult _).bind fun resp => ?_
    split
    · exact (uses_ep0Write (fun _ _ => ioctls _ nofun) _).bind fun _ => trivial
    · exact (uses_ep0Stall (ioctls _ nofun)).bind fun _ => trivial
  | controlOutWithData =>
    rw [handleControl_of_outWithData h]
    refine Uses.bind ?_ fun _ => trivial
    refine (uses_ep0Read (fun _ => ioctls _ nofun) _).bind fun _ => ?_
    exact (uses_submit (submits _)).bind fun _ => (uses_ofResult _).bind fun _ => trivial
  | controlOutNoData =>
    rw [handleControl_of_outNoData h]
    refine Uses.bind ?_ fun _ => trivial
    refine (uses_submit (submits _)).bind fun reply => (uses_ofResult _).bind fun resp => ?_
    split
    · exact (uses_ep0Read (fun _ => ioctls _ nofun) _).bind fun _ => trivial
    · exact uses_ep0Stall (ioctls _ nofun)

/-- Apart from SET_CONFIGURATION, no request enables an endpoint. -/
theorem handleControl_enables {ctrl : UsbCtrlRequest} {s : LoopState} {es : Trace}
    {r : Except IoError LoopState} (run : Runs (handleControl ctrl s) es r)
    (other : dispatch ctrl ≠ .setConfiguration) : enables es = [] := by
  have uses : Uses NotEnable (handleControl ctrl s) :=
    uses_handleControl (fun _ => nofun) (fun call h desc hop => h desc (Op.ioctl.inj hop)) other s
  exact enables_eq_nil (uses.after run).1

/-! ## What the handlers forward -/

/-- Once a request is submitted, the rest of its handling submits nothing. -/
theorem submits_of_submit {α : Type} {request : UrbRequest}
    {rest : Except IoError RetSubmit → Routine α} {es : Trace} {r : Except IoError α}
    (run : Runs (.op (.submit request) rest) es r) (quiet : ∀ reply, Uses NotSubmit (rest reply)) :
    submits es = [request] := by
  rw [runs_op_iff] at run
  obtain ⟨reply, tail, rfl, hrest⟩ := run
  rw [submits_cons_submit, submits_eq_nil ((quiet reply).after hrest).1]

/-- A read of endpoint 0 whose ioctl succeeds returns. -/
theorem runs_ep0Read_bind {α : Type} {buf : List UInt8} {rest : ℕ × List UInt8 → Routine α}
    {es : Trace} {r : Except IoError α} (succeed : IoctlsSucceed es) :
    Runs (ep0Read buf >>= rest) es r ↔
      ∃ reply tail, es = ⟨.ioctl (.ep0Read (ep0Header (ep0ReadLen buf.length))), reply⟩ :: tail ∧
        Runs (rest (copyRead buf ep0BufSize (ep0ReadLen buf.length) reply)) tail r := by
  simp only [ep0Read, rawIoctl_bind, op_bind, runs_op_iff]
  refine exists_congr fun reply => exists_congr fun tail => and_congr_right fun hes => ?_
  subst hes
  rw [if_neg ((ioctlsSucceed_cons_ioctl ..).mp succeed).1]
  rfl

/-- These handlers start with `submit` and submit nothing else. -/
theorem handleControl_submit {ctrl : UsbCtrlRequest} (s : LoopState)
    (h : dispatch ctrl = .controlIn ∨ dispatch ctrl = .setConfiguration ∨
      dispatch ctrl = .controlOutNoData) :
    ∃ rest, handleControl ctrl s = .op (.submit (if ctrl.IsIn
        then controlRequest ctrl .in [] ctrl.wLength.toUInt32 else controlRequest ctrl .out [] 0))
      rest ∧ ∀ reply, Uses NotSubmit (rest reply) := by
  rcases h with h | h | h
  · rw [handleControl_of_controlIn h, if_pos (isIn_of_dispatch h)]
    refine ⟨_, rfl, fun reply => uses_answered reply (fun resp => ?_) fun _ => trivial⟩
    split
    · exact (uses_ep0Write (fun _ _ _ => by simp) _).bind fun _ => trivial
    · exact (uses_ep0Stall fun _ => by simp).bind fun _ => trivial
  · rw [handleControl_of_setConfiguration h, if_neg (isOut_of_dispatch (.inl h))]
    refine ⟨_, rfl, fun reply => uses_answered reply (fun resp => ?_) fun _ => trivial⟩
    exact uses_setConfiguration (fun _ _ => by simp) (fun _ _ => by simp) s resp
  · rw [handleControl_of_outNoData h, if_neg (isOut_of_dispatch (.inr (.inr h)))]
    refine ⟨_, rfl, fun reply => uses_answered reply (fun resp => ?_) fun _ => trivial⟩
    split
    · exact (uses_ep0Read (fun _ _ => by simp) _).bind fun _ => trivial
    · exact uses_ep0Stall fun _ => by simp

/-- This one reads the data stage before. -/
theorem handleControl_outWithData {ctrl : UsbCtrlRequest} (s : LoopState)
    (h : dispatch ctrl = .controlOutWithData) :
    ∃ rest : Except IoError RetSubmit → Routine LoopState,
      handleControl ctrl s = (ep0Read (List.replicate ctrl.wLength.toNat 0) >>= fun read =>
        .op (.submit (controlRequest ctrl .out (read.2.take read.1) ctrl.wLength.toUInt32)) rest) ∧
      ∀ reply, Uses NotSubmit (rest reply) := by
  refine ⟨fun reply => ofResult reply >>= (fun _ => return ()) >>= fun _ => return s, ?_,
    fun reply => uses_answered reply (fun _ => trivial) fun _ => trivial⟩
  rw [handleControl_of_outWithData h, handleControlOutWithData, bind_assoc_prog]
  rfl

/-- Every request but those taken for SET_ADDRESS is submitted once. -/
theorem handleControl_submits {ctrl : UsbCtrlRequest} {s : LoopState} {es : Trace}
    {r : Except IoError LoopState} (run : Runs (handleControl ctrl s) es r)
    (succeed : IoctlsSucceed es) :
    if dispatch ctrl = .setAddress then submits es = []
    else ∃ data length,
      submits es = [controlRequest ctrl (if ctrl.IsIn then .in else .out) data length] := by
  have first : dispatch ctrl = .controlIn ∨ dispatch ctrl = .setConfiguration ∨
      dispatch ctrl = .controlOutNoData → ∃ data length,
        submits es = [controlRequest ctrl (if ctrl.IsIn then .in else .out) data length] := by
    intro h
    obtain ⟨rest, hrest, quiet⟩ := handleControl_submit s h
    rw [hrest] at run
    refine ⟨[], if ctrl.IsIn then ctrl.wLength.toUInt32 else 0, ?_⟩
    rw [submits_of_submit run quiet]
    split <;> rfl
  cases h : dispatch ctrl with
  | setAddress =>
    rw [if_pos rfl]
    rw [handleControl_of_setAddress h] at run
    have uses : Uses NotSubmit (ep0Read [] >>= fun _ => return s) :=
      (uses_ep0Read (fun _ _ => by simp) _).bind fun _ => trivial
    exact submits_eq_nil (uses.after run).1
  | controlIn => exact first (.inl h)
  | setConfiguration => exact first (.inr (.inl h))
  | controlOutNoData => exact first (.inr (.inr h))
  | controlOutWithData =>
    obtain ⟨rest, hrest, quiet⟩ := handleControl_outWithData s h
    rw [hrest] at run
    obtain ⟨reply, tail, rfl, hsubmit⟩ := (runs_ep0Read_bind succeed).mp run
    rw [submits_cons_ioctl, submits_of_submit hsubmit quiet,
      if_neg (isOut_of_dispatch (.inr (.inl h)))]
    exact ⟨_, _, rfl⟩

/-! ## Transparency -/

/-- `bRequestType` 0x00, `bRequest` 5. -/
def UsbCtrlRequest.IsSetAddress (ctrl : UsbCtrlRequest) : Prop :=
  ctrl.bRequestType = 0 ∧ ctrl.bRequest = usbReqSetAddress

/-- `bRequestType` 0x00, `bRequest` 9, `wLength` 0. -/
def UsbCtrlRequest.IsSetConfiguration (ctrl : UsbCtrlRequest) : Prop :=
  ctrl.bRequestType = 0 ∧ ctrl.bRequest = usbReqSetConfiguration ∧ ctrl.wLength = 0

/-- The CMD_SUBMIT of this request stands for the control request: on endpoint
0, in its own direction, with its eight bytes. -/
def Forwards (request : UrbRequest) (ctrl : UsbCtrlRequest) : Prop :=
  ∀ seqnum devid, let header := request.args.header seqnum devid
    header.command = usbipCmdSubmit ∧ header.ep = 0 ∧
    header.direction = (if ctrl.IsIn then Direction.in else Direction.out).toUInt32 ∧
    header.setup.toList = UsbCtrlRequest.format.put ctrl

/-- The event loop runs `handle_set_configuration`. -/
def configuring (ctrl : UsbCtrlRequest) (s : LoopState) : Routine LoopState := do
  return { s with epThreads := ← handleSetConfiguration ctrl s }

/-- The request is treated by its type and number, not by its number alone. -/
structure Transparent (ctrl : UsbCtrlRequest) : Prop where
  /-- Answered without the remote device exactly if it is SET_ADDRESS, -/
  local_iff : ∀ s es r, Runs (handleControl ctrl s) es r → IoctlsSucceed es →
    (submits es = [] ↔ ctrl.IsSetAddress)
  /-- and then by one `ep0_read` of no bytes and nothing else. -/
  acknowledged : ∀ s es r, Runs (handleControl ctrl s) es r → IoctlsSucceed es →
    ((∃ reply, es = [⟨.ioctl (.ep0Read (ep0Header 0)), reply⟩] ∧ r = .ok s) ↔ ctrl.IsSetAddress)
  /-- Otherwise forwarded exactly once, as it is. -/
  forwarded : ∀ s es r, Runs (handleControl ctrl s) es r → IoctlsSucceed es →
    ¬ ctrl.IsSetAddress → ∃ request, submits es = [request] ∧ Forwards request ctrl
  /-- `handle_set_configuration` is run exactly if it is SET_CONFIGURATION, -/
  configures_iff : ∀ s, handleControl ctrl s = configuring ctrl s ↔ ctrl.IsSetConfiguration
  /-- and no endpoint is enabled otherwise. -/
  enables : ∀ s es r, Runs (handleControl ctrl s) es r → enables es ≠ [] → ctrl.IsSetConfiguration

/-- Requests of another type with a number that `dispatch` takes for a standard request. -/
def UsbCtrlRequest.Mistaken (ctrl : UsbCtrlRequest) : Prop :=
  (ctrl.bRequest = usbReqSetAddress ∧ ctrl.bRequestType ≠ 0) ∨
    (ctrl.bRequest = usbReqSetConfiguration ∧ ¬ ctrl.IsIn ∧ ctrl.wLength = 0 ∧
      ctrl.bRequestType ≠ 0)

theorem controlRequest_forwards (ctrl : UsbCtrlRequest) (data : List UInt8) (length : UInt32) :
    Forwards (controlRequest ctrl (if ctrl.IsIn then .in else .out) data length) ctrl :=
  fun _ _ => ⟨rfl, rfl, rfl, rfl⟩

theorem dispatch_setAddress_of {ctrl : UsbCtrlRequest} (right : ¬ ctrl.Mistaken) :
    dispatch ctrl = .setAddress ↔ ctrl.IsSetAddress := by
  rw [dispatch_setAddress_iff]
  constructor
  · intro h
    by_contra other
    exact right (.inl ⟨h, fun zero => other ⟨zero, h⟩⟩)
  · exact And.right

theorem dispatch_setConfiguration_of {ctrl : UsbCtrlRequest} (right : ¬ ctrl.Mistaken) :
    dispatch ctrl = .setConfiguration ↔ ctrl.IsSetConfiguration := by
  rw [dispatch_setConfiguration_iff]
  constructor
  · rintro ⟨h, isOut, empty⟩
    by_contra other
    exact right (.inr ⟨h, isOut, empty, fun zero => other ⟨zero, h, empty⟩⟩)
  · rintro ⟨zero, h, empty⟩
    exact ⟨h, by simp [UsbCtrlRequest.IsIn, zero], empty⟩

/-- A request with SET_ADDRESS's number is acknowledged without the remote device. -/
theorem handleControl_setAddress {ctrl : UsbCtrlRequest} (h : dispatch ctrl = .setAddress)
    (s : LoopState) : ∃ es, Runs (handleControl ctrl s) es (.ok s) ∧ IoctlsSucceed es ∧
      submits es = [] := by
  have acknowledged : IoctlReply.Succeeds ⟨0, 0, []⟩ := by decide
  refine ⟨[⟨.ioctl (.ep0Read (ep0Header 0)), ⟨0, 0, []⟩⟩], ?_, by simp [acknowledged], rfl⟩
  rw [handleControl_of_setAddress h, runs_ep0Read_bind (by simp [acknowledged])]
  exact ⟨_, _, rfl, by simp⟩

/-- The acknowledgement is all that is done. -/
theorem runs_setAddress {ctrl : UsbCtrlRequest} (h : dispatch ctrl = .setAddress) {s : LoopState}
    {es : Trace} {r : Except IoError LoopState} (run : Runs (handleControl ctrl s) es r)
    (succeed : IoctlsSucceed es) :
    ∃ reply, es = [⟨.ioctl (.ep0Read (ep0Header 0)), reply⟩] ∧ r = .ok s := by
  rw [handleControl_of_setAddress h] at run
  obtain ⟨reply, tail, rfl, ended⟩ := (runs_ep0Read_bind succeed).mp run
  obtain ⟨rfl, rfl⟩ := runs_done_iff.mp ended
  exact ⟨reply, rfl, rfl⟩

/-- `handle_set_configuration` forwards the request first, and does not acknowledge it
next, even if the device accepts it. -/
theorem configuring_first (ctrl : UsbCtrlRequest) (s : LoopState) (resp : RetSubmit)
    (accepted : resp.status = 0) :
    ∃ rest, configuring ctrl s = .op (.submit (controlRequest ctrl .out [] 0)) rest ∧
      ∀ header next, rest (.ok resp) ≠ .op (.ioctl (.ep0Read header)) next := by
  refine ⟨_, rfl, fun header next same => ?_⟩
  have same : ((if resp.status ≠ 0 then do
        ep0Stall
        return s.epThreads
      else do
        let configData ← ofResult (s.cachedConfigDesc.elim (.error noCachedDescriptor) .ok)
        let epHandles ← enableEndpoints (parseEndpointDescriptors configData)
        drawPower configData
        configure
        let _ ← ep0Read []
        spawnEpThreads ((parseEndpointDescriptors configData).zipWith Worker.mk epHandles)) >>=
          fun threads => return { s with epThreads := threads } : Routine LoopState) =
        .op (.ioctl (.ep0Read header)) next := same
  rw [if_neg (not_not.mpr accepted)] at same
  cases cached : s.cachedConfigDesc with
  | none => simp [cached] at same
  | some configData =>
    rw [cached, Option.elim_some, ofResult_ok_bind] at same
    cases descs : parseEndpointDescriptors configData with
    | nil =>
      cases power : configData[7]? <;>
        simp [descs, enableEndpoints, drawPower, power, vbusDraw, configure] at same
    | cons desc others => simp [descs, enableEndpoints, epEnable] at same

/-- The other handlers do something else. -/
theorem dispatch_of_configuring {ctrl : UsbCtrlRequest} {s : LoopState}
    (same : handleControl ctrl s = configuring ctrl s) : dispatch ctrl = .setConfiguration := by
  let accepts : RetSubmit := ⟨1, 0, 0, [], .out⟩
  obtain ⟨rest, first, later⟩ := configuring_first ctrl s accepts rfl
  rw [first] at same
  cases h : dispatch ctrl with
  | setConfiguration => rfl
  | setAddress =>
    rw [handleControl_of_setAddress h] at same
    simp [ep0Read] at same
  | controlIn =>
    rw [handleControl_of_controlIn h] at same
    simp [handleControlIn, controlRequest] at same
  | controlOutWithData =>
    rw [handleControl_of_outWithData h] at same
    simp [handleControlOutWithData, ep0Read] at same
  | controlOutNoData =>
    rw [handleControl_of_outNoData h] at same
    obtain ⟨_, continues⟩ := Prog.op.inj same
    have answered := congrFun (eq_of_heq continues) (.ok accepts)
    exact absurd answered.symm (later _ _)

/-- Control requests are forwarded transparently, but for those that `dispatch`
mistakes by their number. -/
theorem control_transparent_iff (ctrl : UsbCtrlRequest) : Transparent ctrl ↔ ¬ ctrl.Mistaken := by
  constructor
  · rintro transparent (⟨h, type⟩ | ⟨h, isOut, empty, type⟩)
    · obtain ⟨es, run, succeed, none⟩ :=
        handleControl_setAddress ((dispatch_setAddress_iff ctrl).mpr h) ⟨none, []⟩
      exact type ((transparent.local_iff _ _ _ run succeed).mp none).1
    · have selects := (dispatch_setConfiguration_iff ctrl).mpr ⟨h, isOut, empty⟩
      have runs := handleControl_of_setConfiguration selects ⟨none, []⟩
      exact type ((transparent.configures_iff _).mp runs).1
  · intro right
    have address := dispatch_setAddress_of right
    have configuration := dispatch_setConfiguration_of right
    have local_iff {s : LoopState} {es : Trace} {r : Except IoError LoopState}
        (run : Runs (handleControl ctrl s) es r) (succeed : IoctlsSucceed es) :
        submits es = [] ↔ ctrl.IsSetAddress := by
      have submitted := handleControl_submits run succeed
      rw [← address]
      split at submitted
      · next h => simp [h, submitted]
      · next h =>
        obtain ⟨data, length, one⟩ := submitted
        simp [h, one]
    refine ⟨fun s es r => local_iff, fun s es r run succeed => ⟨?_, fun standard => ?_⟩,
      fun s es r run succeed other => ?_, fun s => ⟨fun runs => ?_, fun standard => ?_⟩,
      fun s es r run enabled => ?_⟩
    · rintro ⟨reply, rfl, _⟩
      exact (local_iff run succeed).mp rfl
    · exact runs_setAddress (address.mpr standard) run succeed
    · have submitted := handleControl_submits run succeed
      rw [if_neg (mt address.mp other)] at submitted
      obtain ⟨data, length, one⟩ := submitted
      exact ⟨_, one, controlRequest_forwards ctrl data length⟩
    · exact configuration.mp (dispatch_of_configuring runs)
    · exact handleControl_of_setConfiguration (configuration.mpr standard) s
    · rw [← configuration]
      by_contra other
      exact enabled (handleControl_enables run other)

/-- A vendor request with number 5 and one with number 9. -/
theorem vendor_requests_not_transparent :
    ¬ Transparent ⟨0x40, 0x05, 0, 0, 0⟩ ∧ ¬ Transparent ⟨0x40, 0x09, 1, 0, 0⟩ := by
  refine ⟨fun transparent => ?_, fun transparent => ?_⟩
  · obtain ⟨es, run, succeed, none⟩ :=
      @handleControl_setAddress ⟨0x40, 0x05, 0, 0, 0⟩ (by decide) ⟨none, []⟩
    exact absurd ((transparent.local_iff _ _ _ run succeed).mp none).1 (by decide)
  · have runs := @handleControl_of_setConfiguration ⟨0x40, 0x09, 1, 0, 0⟩ (by decide) ⟨none, []⟩
    exact absurd ((transparent.configures_iff _).mp runs).1 (by decide)

end UsbipDevirt
