import UsbipDevirt.Lib.Program
import UsbipDevirt.Bridge
import UsbipDevirt.Descriptors

/-!
# The event loop and the data threads

`main` from its event loop on, and the bodies of the endpoint data threads, as
programs over four operations: a call of `UsbipBridge::submit`, an ioctl, and
spawning and joining a thread. What the operations answer is left open.
-/

namespace UsbipDevirt

open Program Program.Prog

/-! ## Operations -/

abbrev ThreadId := ℕ

/-- What the closure of a data thread captures. -/
structure Worker where
  desc : UsbEndpointDescriptor
  handle : EpHandle
  deriving DecidableEq

inductive Op where
  | submit (request : UrbRequest)
  | ioctl (call : Ioctl)
  | spawn (worker : Worker)
  | join (thread : ThreadId)
  deriving DecidableEq

abbrev Reply : Op → Type
  | .submit _ => Except IoError RetSubmit
  | .ioctl _ => IoctlReply
  | .spawn _ => ThreadId
  | .join _ => Unit

/-- A computation with `io::Result`. -/
abbrev Routine (α : Type) := Prog Reply IoError α

abbrev Trace := List (Program.Event Reply)

/-- `bridge.submit(..)` -/
def submit (request : UrbRequest) : Routine (Except IoError RetSubmit) :=
  perform (Op.submit request)

/-- `raw_ioctl` -/
def rawIoctl (call : Ioctl) : Routine (Except IoError IoctlReply) :=
  .op (.ioctl call) fun reply =>
    if reply.ret < 0 then pure (.error (lastOsError reply.errno)) else pure (.ok reply)

/-- The `?` operator. -/
def ofResult {α : Type} : Except IoError α → Routine α := .done

def spawn (worker : Worker) : Routine ThreadId := perform (Op.spawn worker)

def join (thread : ThreadId) : Routine Unit := perform (Op.join thread)

section Sequences

variable {α : Type}

@[simp] theorem submit_bind (request : UrbRequest)
    (f : Except IoError RetSubmit → Routine α) :
    submit request >>= f = .op (.submit request) f := rfl

@[simp] theorem rawIoctl_bind (call : Ioctl) (f : Except IoError IoctlReply → Routine α) :
    rawIoctl call >>= f = .op (.ioctl call) fun reply =>
      if reply.ret < 0 then f (.error (lastOsError reply.errno)) else f (.ok reply) := by
  unfold rawIoctl
  rw [op_bind]
  congr 1
  funext reply
  split <;> rfl

@[simp] theorem ofResult_ok_bind {β : Type} (b : β) (f : β → Routine α) :
    ofResult (.ok b) >>= f = f b := rfl

@[simp] theorem ofResult_error_bind {β : Type} (e : IoError) (f : β → Routine α) :
    ofResult (.error e) >>= f = .done (.error e) := rfl

@[simp] theorem spawn_bind (worker : Worker) (f : ThreadId → Routine α) :
    spawn worker >>= f = .op (.spawn worker) f := rfl

@[simp] theorem join_bind (thread : ThreadId) (f : Unit → Routine α) :
    join thread >>= f = .op (.join thread) f := rfl

end Sequences

namespace RawGadgetDevice

def eventFetch : Routine Event := do
  let reply ← ofResult (← rawIoctl (.eventFetch eventFetchBuf))
  return .ofBuf (overwrite eventFetchBuf reply.written)

def ep0Write (data : List UInt8) : Routine Unit := do
  if ep0BufSize < data.length then ofResult (.error (ep0WriteTooLarge data.length))
  else
    let _ ← ofResult (← rawIoctl (.ep0Write (ep0Header data.length) (ep0WriteBuf data)))

/-- The number of bytes read and the caller's buffer after the call. -/
def ep0Read (buf : List UInt8) : Routine (ℕ × List UInt8) := do
  let len := ep0ReadLen buf.length
  let reply ← ofResult (← rawIoctl (.ep0Read (ep0Header len)))
  return copyRead buf ep0BufSize len reply

def ep0Stall : Routine Unit := do
  let _ ← ofResult (← rawIoctl .ep0Stall)

def epEnable (desc : UsbEndpointDescriptor) : Routine EpHandle := do
  let reply ← ofResult (← rawIoctl (.epEnable desc))
  return ⟨reply.ret.toUInt32⟩

def epWrite (ep : EpHandle) (data : List UInt8) : Routine (Except IoError IoctlReply) :=
  rawIoctl (.epWrite (epHeader ep data.length) data)

def epRead (ep : EpHandle) (buf : List UInt8) : Routine (Except IoError (ℕ × List UInt8)) := do
  let reply ← rawIoctl (.epRead (epHeader ep buf.length))
  return reply.map (copyRead buf buf.length buf.length)

def vbusDraw (power : UInt32) : Routine Unit := do
  let _ ← ofResult (← rawIoctl (.vbusDraw power))

def configure : Routine Unit := do
  let _ ← ofResult (← rawIoctl .configure)

end RawGadgetDevice

open RawGadgetDevice

/-! ## Control requests -/

/-- The variables of the event loop. -/
structure LoopState where
  cachedConfigDesc : Option (List UInt8)
  epThreads : List ThreadId
  deriving DecidableEq

def ctrlToSetup (ctrl : UsbCtrlRequest) : List.Vector UInt8 8 :=
  ⟨[ctrl.bRequestType, ctrl.bRequest] ++ Bytes.u16le.put ctrl.wValue ++
    Bytes.u16le.put ctrl.wIndex ++ Bytes.u16le.put ctrl.wLength, rfl⟩

/-- The arguments of a call of `submit` for a control request. -/
def controlRequest (ctrl : UsbCtrlRequest) (direction : Direction) (data : List UInt8)
    (transferBufferLength : UInt32) : UrbRequest where
  ep := 0
  direction := direction
  setup := ctrlToSetup ctrl
  data := data
  transferBufferLength := transferBufferLength

/-- `bRequestType & 0x80 != 0` -/
def UsbCtrlRequest.IsIn (ctrl : UsbCtrlRequest) : Prop := ctrl.bRequestType &&& usbDirIn ≠ 0

instance (ctrl : UsbCtrlRequest) : Decidable ctrl.IsIn := inferInstanceAs (Decidable (_ ≠ _))

/-- A reply to such a request replaces the cached configuration descriptor. -/
def UsbCtrlRequest.Caches (ctrl : UsbCtrlRequest) : Prop :=
  ctrl.bRequest = usbReqGetDescriptor ∧ ctrl.wValue >>> 8 = 0x02

instance (ctrl : UsbCtrlRequest) : Decidable ctrl.Caches := inferInstanceAs (Decidable (_ ∧ _))

/-- Returns the cache after the request. -/
def handleControlIn (ctrl : UsbCtrlRequest) (cachedConfigDesc : Option (List UInt8)) :
    Routine (Option (List UInt8)) := do
  let resp ← ofResult (← submit (controlRequest ctrl .in [] ctrl.wLength.toUInt32))
  if resp.status = 0 then
    let cachedConfigDesc := if ctrl.Caches then some resp.data else cachedConfigDesc
    ep0Write resp.data
    return cachedConfigDesc
  else
    ep0Stall
    return cachedConfigDesc

def handleControlOutWithData (ctrl : UsbCtrlRequest) : Routine Unit := do
  let (n, buf) ← ep0Read (List.replicate ctrl.wLength.toNat 0)
  -- the remote status comes too late for a stall and is only logged
  let _ ← ofResult (← submit (controlRequest ctrl .out (buf.take n) ctrl.wLength.toUInt32))

def handleControlOutNoData (ctrl : UsbCtrlRequest) : Routine Unit := do
  let resp ← ofResult (← submit (controlRequest ctrl .out [] 0))
  if resp.status = 0 then
    let _ ← ep0Read []
  else
    ep0Stall

def noCachedDescriptor : IoError :=
  ⟨.invalidData, "SET_CONFIGURATION without cached config descriptor"⟩

def enableEndpoints : List UsbEndpointDescriptor → Routine (List EpHandle)
  | [] => return []
  | desc :: descs => do
    let handle ← epEnable desc
    let handles ← enableEndpoints descs
    return handle :: handles

def spawnEpThreads : List Worker → Routine (List ThreadId)
  | [] => return []
  | worker :: workers => do
    let thread ← spawn worker
    let threads ← spawnEpThreads workers
    return thread :: threads

/-- Draws what the descriptor's `bMaxPower` asks for, if it is long enough to have one. -/
def drawPower (configData : List UInt8) : Routine Unit :=
  match configData[7]? with
  | some power => vbusDraw power.toUInt32
  | none => return

/-- Returns `ep_threads` after the request. -/
def handleSetConfiguration (ctrl : UsbCtrlRequest) (s : LoopState) : Routine (List ThreadId) := do
  let resp ← ofResult (← submit (controlRequest ctrl .out [] 0))
  if resp.status ≠ 0 then
    ep0Stall
    return s.epThreads
  else
    let configData ← ofResult (s.cachedConfigDesc.elim (.error noCachedDescriptor) .ok)
    let epDescs := parseEndpointDescriptors configData
    let epHandles ← enableEndpoints epDescs
    drawPower configData
    configure
    let _ ← ep0Read []
    spawnEpThreads (epDescs.zipWith Worker.mk epHandles)

/-- The branches of the event loop for a control request. -/
inductive Handler where
  | setAddress
  | setConfiguration
  | controlIn
  | controlOutWithData
  | controlOutNoData
  deriving DecidableEq, Repr

def dispatch (ctrl : UsbCtrlRequest) : Handler :=
  if ctrl.bRequest = usbReqSetAddress then .setAddress
  else if ctrl.bRequest = usbReqSetConfiguration ∧ ¬ ctrl.IsIn ∧ ctrl.wLength = 0 then
    .setConfiguration
  else if ctrl.IsIn then .controlIn
  else if 0 < ctrl.wLength then .controlOutWithData
  else .controlOutNoData

def handleControl (ctrl : UsbCtrlRequest) (s : LoopState) : Routine LoopState :=
  match dispatch ctrl with
  | .setAddress => do
    let _ ← ep0Read []
    return s
  | .setConfiguration => do return { s with epThreads := ← handleSetConfiguration ctrl s }
  | .controlIn => do
    return { s with cachedConfigDesc := ← handleControlIn ctrl s.cachedConfigDesc }
  | .controlOutWithData => do
    handleControlOutWithData ctrl
    return s
  | .controlOutNoData => do
    handleControlOutNoData ctrl
    return s

/-! ## The loop -/

def joinAll : List ThreadId → Routine Unit
  | [] => return
  | thread :: threads => do
    join thread
    joinAll threads

def handleEvent (event : Event) (s : LoopState) : Routine LoopState :=
  match event with
  | .control ctrl => handleControl ctrl s
  | .disconnect | .reset => do
    joinAll s.epThreads
    return ⟨none, []⟩
  | .connect | .suspend | .resume | .unknown _ => return s

/-- One iteration. -/
def mainLoop (s : LoopState) : Routine LoopState := do handleEvent (← eventFetch) s

theorem mainLoop_eq (vars : LoopState) :
    mainLoop vars = .op (.ioctl (.eventFetch eventFetchBuf)) fun reply =>
      if reply.ret < 0 then .done (.error (lastOsError reply.errno))
      else handleEvent (.ofBuf (overwrite eventFetchBuf reply.written)) vars := by
  unfold mainLoop eventFetch
  rw [rawIoctl_bind, op_bind]
  congr 1
  funext reply
  split <;> rfl

/-! ## Data threads -/

def Worker.epNum (w : Worker) : UInt32 := (w.desc.bEndpointAddress &&& 0x0f).toUInt32

def Worker.IsIn (w : Worker) : Prop := w.desc.bEndpointAddress &&& usbDirIn ≠ 0

instance (w : Worker) : Decidable w.IsIn := inferInstanceAs (Decidable (_ ≠ _))

def Worker.maxPacketSize (w : Worker) : UInt32 := w.desc.wMaxPacketSize.toUInt32

/-- A transfer on a non-control endpoint. -/
def Worker.request (w : Worker) (direction : Direction) (data : List UInt8)
    (transferBufferLength : UInt32) : UrbRequest where
  ep := w.epNum
  direction := direction
  setup := List.Vector.replicate 8 0
  data := data
  transferBufferLength := transferBufferLength

/-- One iteration of an IN thread; `false` leaves the loop. -/
def Worker.inIteration (w : Worker) : Routine Bool := do
  match ← submit (w.request .in [] w.maxPacketSize) with
  | .error _ => return false
  | .ok resp =>
    if resp.status ≠ 0 then return false
    else
      match ← epWrite w.handle resp.data with
      | .error _ => return false
      | .ok _ => return true

/-- One iteration of an OUT thread with its buffer; `none` leaves the loop. -/
def Worker.outIteration (w : Worker) (buf : List UInt8) : Routine (Option (List UInt8)) := do
  match ← epRead w.handle buf with
  | .error _ => return none
  | .ok (n, buf) =>
    match ← submit (w.request .out (buf.take n) (UInt32.ofNat n)) with
    | .error _ => return none
    | .ok resp => if resp.status ≠ 0 then return none else return some buf

/-- The loop variable of a data thread, which only OUT threads use. -/
def Worker.initial (w : Worker) : List UInt8 :=
  if w.IsIn then [] else List.replicate w.maxPacketSize.toNat 0

def Worker.iteration (w : Worker) (buf : List UInt8) : Routine (Option (List UInt8)) :=
  if w.IsIn then do return if ← w.inIteration then some buf else none
  else w.outIteration buf

/-! ## Traces -/

/-- The event that an iteration of the event loop is about. -/
def eventOf : Trace → Option Event
  | ⟨.ioctl (.eventFetch buf), reply⟩ :: _ =>
    if reply.Succeeds then some (.ofBuf (overwrite buf reply.written)) else none
  | _ => none

/-- The calls of `submit` in a trace. -/
def submits (es : Trace) : List UrbRequest := es.filterMap fun e =>
  match e.op with
  | .submit request => some request
  | _ => none

/-- The endpoints enabled in a trace. -/
def enables (es : Trace) : List UsbEndpointDescriptor := es.filterMap fun e =>
  match e.op with
  | .ioctl (.epEnable desc) => some desc
  | _ => none

/-- Every ioctl of a trace succeeds. -/
def IoctlsSucceed (es : Trace) : Prop :=
  ∀ e ∈ es, match e with
    | ⟨.ioctl _, reply⟩ => reply.Succeeds
    | _ => True

/-- The event is fetched first. -/
theorem eventOf_cons (first : Program.Event Reply) (es : Trace) :
    eventOf (first :: es) = eventOf [first] := by
  obtain ⟨o, reply⟩ := first
  cases o with
  | ioctl call => cases call <;> rfl
  | _ => rfl

@[simp] theorem submits_nil : submits [] = [] := rfl

@[simp] theorem submits_append (es fs : Trace) : submits (es ++ fs) = submits es ++ submits fs :=
  List.filterMap_append

@[simp] theorem submits_cons_submit (request : UrbRequest) (reply : Reply (.submit request))
    (es : Trace) : submits (⟨.submit request, reply⟩ :: es) = request :: submits es := rfl

@[simp] theorem submits_cons_ioctl (call : Ioctl) (reply : Reply (.ioctl call)) (es : Trace) :
    submits (⟨.ioctl call, reply⟩ :: es) = submits es := rfl

@[simp] theorem enables_nil : enables [] = [] := rfl

@[simp] theorem enables_append (es fs : Trace) : enables (es ++ fs) = enables es ++ enables fs :=
  List.filterMap_append

theorem submits_eq_nil {es : Trace} (h : ∀ e ∈ es, ∀ request, e.op ≠ .submit request) :
    submits es = [] := by
  refine List.filterMap_eq_nil_iff.mpr fun e he => ?_
  split
  · next request hop => exact absurd hop (h e he request)
  · rfl

theorem enables_eq_nil {es : Trace} (h : ∀ e ∈ es, ∀ desc, e.op ≠ .ioctl (.epEnable desc)) :
    enables es = [] := by
  refine List.filterMap_eq_nil_iff.mpr fun e he => ?_
  split
  · next desc hop => exact absurd hop (h e he desc)
  · rfl

@[simp] theorem ioctlsSucceed_nil : IoctlsSucceed [] := by simp [IoctlsSucceed]

@[simp] theorem ioctlsSucceed_append (es fs : Trace) :
    IoctlsSucceed (es ++ fs) ↔ IoctlsSucceed es ∧ IoctlsSucceed fs := by
  simp only [IoctlsSucceed, List.forall_mem_append]

@[simp] theorem ioctlsSucceed_cons_ioctl (call : Ioctl) (reply : IoctlReply) (es : Trace) :
    IoctlsSucceed (⟨.ioctl call, reply⟩ :: es) ↔ reply.Succeeds ∧ IoctlsSucceed es := by
  simp only [IoctlsSucceed, List.forall_mem_cons]

@[simp] theorem ioctlsSucceed_cons_submit (request : UrbRequest)
    (reply : Except IoError RetSubmit) (es : Trace) :
    IoctlsSucceed (⟨.submit request, reply⟩ :: es) ↔ IoctlsSucceed es := by
  simp only [IoctlsSucceed, List.forall_mem_cons, true_and]

end UsbipDevirt
