import UsbipDevirt.Handshake
import UsbipDevirt.System

/-!
# Starting up

`main` up to its event loop: two connections to the server, one for the list and
one that the first device of the list is imported over, then the reader thread,
then the raw-gadget device. The list and the import work on whatever the sockets
deliver and take. Nothing is done after a failure, so the gadget is not touched
unless a device is imported, and does not run unless it has been initialized
for that device.
-/

namespace UsbipDevirt

open Program Program.Prog

/-! ## Operations -/

/-- USB device speed. -/
inductive UsbSpeed where
  | unknown
  | low
  | full
  | high
  | wireless
  | super
  | superPlus
  deriving DecidableEq

/-- `speed as u8` -/
def UsbSpeed.toUInt8 : UsbSpeed → UInt8
  | .unknown => 0
  | .low => 1
  | .full => 2
  | .high => 3
  | .wireless => 4
  | .super => 5
  | .superPlus => 6

def mapSpeed (speed : UInt32) : UsbSpeed :=
  match speed with
  | 1 => .low
  | 2 => .full
  | 3 => .high
  | 4 => .wireless
  | 5 => .super
  | 6 => .superPlus
  | _ => .unknown

def udcNameLengthMax : ℕ := 128

/-- Argument for `USB_RAW_IOCTL_INIT`. -/
structure UsbRawInit where
  driverName : List.Vector UInt8 udcNameLengthMax
  deviceName : List.Vector UInt8 udcNameLengthMax
  speed : UInt8
  deriving DecidableEq

/-- A connected socket: where its writes go and what it delivers. -/
structure TcpStream where
  output : Output
  input : Input
  deriving DecidableEq

inductive SetupOp where
  | connect (addr : String)
  | setNodelay
  | tryClone
  | spawnReader
  | openPath (path : String)
  | init (arg : UsbRawInit)
  | run
  deriving DecidableEq

abbrev SetupReply : SetupOp → Type
  | .connect _ => Except IoError TcpStream
  | .setNodelay | .tryClone | .openPath _ => Except IoError Unit
  | .spawnReader => Unit
  | .init _ | .run => IoctlReply

/-- An `io::Error` of the start. -/
inductive StartupError where
  /-- `ErrorKind::NotFound`, of which there is no other. -/
  | notFound (message : String)
  | io (e : IoError)
  deriving DecidableEq

abbrev Setup (α : Type) := Prog SetupReply StartupError α

/-- The `?` operator. -/
def require {α : Type} : Except IoError α → Setup α
  | .ok a => .done (.ok a)
  | .error e => .done (.error (.io e))

/-- `raw_ioctl` -/
def IoctlReply.checked (reply : IoctlReply) : Except IoError Unit :=
  if reply.ret < 0 then .error (lastOsError reply.errno) else .ok ()

/-! ## The functions -/

section Functions

variable (replace : List UInt8 → String)

/-- What both requests begin with. -/
def connected (addr : String) : Setup TcpStream := do
  let stream ← require (← perform (SetupOp.connect addr))
  require (← perform SetupOp.setNodelay)
  return stream

/-- `list_devices` with its own connection. -/
def listDevicesAt (addr : String) : Setup (List DeviceInfo) := do
  let stream ← connected addr
  require (listDevices replace stream.output stream.input).1

/-- `import_device` with its own connection. -/
def importDeviceAt (addr busid : String) : Setup (DeviceInfo × UsbipConnection) := do
  let stream ← connected addr
  require (importDevice replace busid stream.output stream.input).1

def driverNameTooLong : IoError := ⟨.invalidInput, "driver name too long"⟩
def deviceNameTooLong : IoError := ⟨.invalidInput, "device name too long"⟩

/-- The argument of the ioctl in `RawGadgetDevice::init`. -/
def usbRawInit (driverName deviceName : String) (speed : UsbSpeed) : Except IoError UsbRawInit :=
  if udcNameLengthMax ≤ (utf8 driverName).length then .error driverNameTooLong
  else if udcNameLengthMax ≤ (utf8 deviceName).length then .error deviceNameTooLong
  else .ok ⟨padded udcNameLengthMax driverName, padded udcNameLengthMax deviceName, speed.toUInt8⟩

/-- `RawGadgetDevice::init` -/
def initGadget (driverName deviceName : String) (speed : UsbSpeed) : Setup Unit := do
  let raw ← require (usbRawInit driverName deviceName speed)
  let reply ← perform (SetupOp.init raw)
  require reply.checked
  return ()

/-- `RawGadgetDevice::run` -/
def runGadget : Setup Unit := do
  let reply ← perform SetupOp.run
  require reply.checked
  return ()

/-- The command line. -/
structure Args where
  host : String
  port : UInt16
  udcDriver : String
  udcDevice : String

def Args.serverAddr (args : Args) : String := s!"{args.host}:{args.port}"

def noDevices : StartupError := .notFound "no devices available on USB/IP server"

/-- `main` up to the import of the first device. -/
def importFirst (args : Args) : Setup (DeviceInfo × UsbipConnection) := do
  let devices ← listDevicesAt replace args.serverAddr
  match devices with
  | [] => .done (.error noDevices)
  | device :: _ => importDeviceAt replace args.serverAddr device.busid

/-- `main` from `into_split` to the event loop. -/
def serve (args : Args) (devInfo : DeviceInfo) : Setup Unit := do
  require (← perform SetupOp.tryClone)
  perform SetupOp.spawnReader
  require (← perform (SetupOp.openPath "/dev/raw-gadget"))
  initGadget args.udcDriver args.udcDevice (mapSpeed devInfo.speed)
  runGadget

/-- `main` in front of its event loop. -/
def startup (args : Args) : Setup (DeviceInfo × UsbipConnection) := do
  let (devInfo, conn) ← importFirst replace args
  serve args devInfo
  return (devInfo, conn)

end Functions

/-! ## In order, up to the first failure -/

def ioError {α : Type} : Except IoError α → Option StartupError
  | .error e => some (.io e)
  | .ok _ => none

/-- The failure of an operation. -/
def setupFailure : Program.Event SetupReply → Option StartupError
  | ⟨.connect _, reply⟩ => ioError reply
  | ⟨.setNodelay, reply⟩ => ioError reply
  | ⟨.tryClone, reply⟩ => ioError reply
  | ⟨.spawnReader, _⟩ => none
  | ⟨.openPath _, reply⟩ => ioError reply
  | ⟨.init _, reply⟩ => ioError reply.checked
  | ⟨.run, reply⟩ => ioError reply.checked

/-- The operations of `main`, for a device of this speed. -/
def setupOps (args : Args) (speed : UInt32) : List SetupOp :=
  [.connect args.serverAddr, .setNodelay, .connect args.serverAddr, .setNodelay, .tryClone,
    .spawnReader, .openPath "/dev/raw-gadget",
    .init ⟨padded udcNameLengthMax args.udcDriver, padded udcNameLengthMax args.udcDevice,
      (mapSpeed speed).toUInt8⟩, .run]

section Checked

variable {α β : Type} {o : SetupOp} {check : SetupReply o → Except IoError β} {f : β → Setup α}
  {es : List (Program.Event SetupReply)}

theorem scripted_result (x : Except IoError β) : Scripted [] (require x) := by
  cases x with
  | error e => exact scripted_error _
  | ok b => exact scripted_return b

theorem scripted_require {script : List SetupOp} (x : Except IoError β)
    (h : ∀ b, Scripted script (f b)) : Scripted script (require x >>= f) := by
  cases x with
  | error e => exact scripted_error _
  | ok b => exact h b

/-- An operation followed by `?`. -/
theorem scripted_checked {script : List SetupOp} (h : ∀ b, Scripted script (f b)) :
    Scripted (o :: script) (perform o >>= fun reply => require (check reply) >>= f) :=
  scripted_op fun reply => scripted_require (check reply) h

theorem stops_result (x : Except IoError β) : Stops (failing setupFailure) (require x) := by
  cases x <;> exact stops_done _

theorem stops_require (x : Except IoError β) (h : ∀ b, Stops (failing setupFailure) (f b)) :
    Stops (failing setupFailure) (require x >>= f) := by
  cases x with
  | error e => exact stops_done _
  | ok b => exact h b

theorem stops_checked (fails : ∀ reply, setupFailure ⟨o, reply⟩ = ioError (check reply))
    (h : ∀ b, Stops (failing setupFailure) (f b)) :
    Stops (failing setupFailure) (perform o >>= fun reply => require (check reply) >>= f) := by
  intro reply
  have failure := fails reply
  constructor
  · intro result stopped
    obtain ⟨e, failed, rfl⟩ := Option.map_eq_some_iff.mp stopped
    rw [failure] at failed
    cases hc : check reply with
    | error e' =>
      rw [hc] at failed
      cases failed
      show require (check reply) >>= f = _
      rw [hc]
      rfl
    | ok b =>
      rw [hc] at failed
      cases failed
  · intro _
    exact stops_require (check reply) h

/-- The operation has not failed. -/
theorem runs_checked {result : Except StartupError α}
    (fails : ∀ reply, setupFailure ⟨o, reply⟩ = ioError (check reply))
    (run : Runs (perform o >>= fun reply => require (check reply) >>= f) es result)
    (clean : ∀ e ∈ es, setupFailure e = none) :
    ∃ reply b rest, es = ⟨o, reply⟩ :: rest ∧ check reply = .ok b ∧ Runs (f b) rest result ∧
      ∀ e ∈ rest, setupFailure e = none := by
  obtain ⟨reply, rest, rfl, later⟩ := runs_op_iff.mp run
  obtain ⟨here, clean⟩ := List.forall_mem_cons.mp clean
  change Runs (require (check reply) >>= f) rest result at later
  cases hc : check reply with
  | error e =>
    rw [fails reply, hc] at here
    cases here
  | ok b =>
    rw [hc] at later
    exact ⟨reply, b, rest, rfl, hc, later, clean⟩

end Checked

/-! ### The functions -/

section Scripts

variable (replace : List UInt8 → String) (args : Args)

theorem scripted_connected (addr : String) :
    Scripted [.connect addr, .setNodelay] (connected addr) :=
  scripted_checked fun stream => scripted_checked fun _ => scripted_return stream

theorem scripted_listDevicesAt (addr : String) :
    Scripted [.connect addr, .setNodelay] (listDevicesAt replace addr) := by
  have script := (scripted_connected addr).bind fun stream =>
    scripted_result (listDevices replace stream.output stream.input).1
  rwa [List.append_nil] at script

theorem scripted_importDeviceAt (addr busid : String) :
    Scripted [.connect addr, .setNodelay] (importDeviceAt replace addr busid) := by
  have script := (scripted_connected addr).bind fun stream =>
    scripted_result (importDevice replace busid stream.output stream.input).1
  rwa [List.append_nil] at script

theorem scripted_importFirst : Scripted
    [.connect args.serverAddr, .setNodelay, .connect args.serverAddr, .setNodelay]
    (importFirst replace args) := by
  refine (scripted_listDevicesAt replace args.serverAddr).bind fun devices => ?_
  cases devices with
  | nil => exact scripted_error noDevices
  | cons device _ => exact scripted_importDeviceAt replace args.serverAddr device.busid

theorem usbRawInit_eq {driverName deviceName : String} {speed : UsbSpeed} {raw : UsbRawInit}
    (h : usbRawInit driverName deviceName speed = .ok raw) :
    (utf8 driverName).length < udcNameLengthMax ∧ (utf8 deviceName).length < udcNameLengthMax ∧
      raw = ⟨padded udcNameLengthMax driverName, padded udcNameLengthMax deviceName,
        speed.toUInt8⟩ := by
  unfold usbRawInit at h
  split at h
  · cases h
  · next driver =>
    split at h
    · cases h
    · next device =>
      cases h
      exact ⟨Nat.lt_of_not_le driver, Nat.lt_of_not_le device, rfl⟩

theorem scripted_initGadget (driverName deviceName : String) (speed : UsbSpeed) :
    Scripted [.init ⟨padded udcNameLengthMax driverName, padded udcNameLengthMax deviceName,
      speed.toUInt8⟩] (initGadget driverName deviceName speed) := by
  unfold initGadget
  cases h : usbRawInit driverName deviceName speed with
  | error e => exact scripted_error _
  | ok raw =>
    obtain ⟨_, _, rfl⟩ := usbRawInit_eq h
    exact scripted_checked fun _ => scripted_return ()

theorem scripted_serve (devInfo : DeviceInfo) : Scripted ((setupOps args devInfo.speed).drop 4)
    (serve args devInfo) :=
  scripted_checked fun _ => scripted_op fun _ => scripted_checked fun _ =>
    (scripted_initGadget args.udcDriver args.udcDevice (mapSpeed devInfo.speed)).bind fun _ =>
      scripted_checked fun _ => scripted_return ()

theorem after_startup {es : List (Program.Event SetupReply)}
    {q : Setup (DeviceInfo × UsbipConnection)} (run : After (startup replace args) es q) :
    ∃ speed, es.map Program.Event.op <+: setupOps args speed := by
  rcases (scripted_importFirst replace args).after_bind run with
    ⟨inside, _⟩ | ⟨imported, first, rest, rfl, _, done, later⟩
  · exact ⟨0, inside.trans (List.prefix_append _ ((setupOps args 0).drop 4))⟩
  · have script := (scripted_serve args imported.1).bind fun _ => scripted_return imported
    rw [List.append_nil] at script
    refine ⟨imported.1.speed, ?_⟩
    rw [List.map_append, done]
    exact (List.prefix_append_right_inj _).mpr (script rest q later).1

theorem stops_connected (addr : String) : Stops (failing setupFailure) (connected addr) :=
  stops_checked (fun _ => rfl) fun _ => stops_checked (fun _ => rfl) fun _ => stops_done _

theorem stops_listDevicesAt (addr : String) :
    Stops (failing setupFailure) (listDevicesAt replace addr) :=
  (stops_connected addr).bind fun stream =>
    stops_result (listDevices replace stream.output stream.input).1

theorem stops_importDeviceAt (addr busid : String) :
    Stops (failing setupFailure) (importDeviceAt replace addr busid) :=
  (stops_connected addr).bind fun stream =>
    stops_result (importDevice replace busid stream.output stream.input).1

theorem stops_importFirst : Stops (failing setupFailure) (importFirst replace args) := by
  refine (stops_listDevicesAt replace args.serverAddr).bind fun devices => ?_
  cases devices with
  | nil => exact stops_done _
  | cons device _ => exact stops_importDeviceAt replace args.serverAddr device.busid

theorem stops_serve (devInfo : DeviceInfo) : Stops (failing setupFailure) (serve args devInfo) := by
  refine stops_checked (fun _ => rfl) fun _ => ?_
  refine fun reply => ⟨nofun, fun _ => stops_checked (fun _ => rfl) fun _ => ?_⟩
  refine (stops_require (usbRawInit args.udcDriver args.udcDevice (mapSpeed devInfo.speed))
    fun _ => stops_checked (fun _ => rfl) fun _ => stops_done _).bind fun _ => ?_
  exact stops_checked (fun _ => rfl) fun _ => stops_done _

theorem stops_startup : Stops (failing setupFailure) (startup replace args) :=
  (stops_importFirst replace args).bind fun imported =>
    (stops_serve args imported.1).bind fun _ => stops_done _

end Scripts

/-! ## How it ends -/

section Ends

variable {replace : List UInt8 → String} {args : Args} {α : Type}

/-- A connection made. -/
def opened (args : Args) (stream : TcpStream) : List (Program.Event SetupReply) :=
  [⟨.connect args.serverAddr, .ok stream⟩, ⟨.setNodelay, .ok ()⟩]

/-- What follows the import, up to the gadget's initialization. -/
def handedOver : List (Program.Event SetupReply) :=
  [⟨.tryClone, .ok ()⟩, ⟨.spawnReader, ()⟩, ⟨.openPath "/dev/raw-gadget", .ok ()⟩]

/-- The ends of `main` in which no operation has failed: on the first connection, on
the second, at the names of the UDC, or in the event loop. -/
inductive Started (replace : List UInt8 → String) (args : Args) :
    List (Program.Event SetupReply) → Except StartupError (DeviceInfo × UsbipConnection) → Prop
  | listFails {s : TcpStream} {e : IoError}
      (list : (listDevices replace s.output s.input).1 = .error e) :
      Started replace args (opened args s) (.error (.io e))
  | empty {s : TcpStream} (list : (listDevices replace s.output s.input).1 = .ok []) :
      Started replace args (opened args s) (.error noDevices)
  | importFails {s t : TcpStream} {device : DeviceInfo} {others : List DeviceInfo} {e : IoError}
      (list : (listDevices replace s.output s.input).1 = .ok (device :: others))
      (imports : (importDevice replace device.busid t.output t.input).1 = .error e) :
      Started replace args (opened args s ++ opened args t) (.error (.io e))
  | nameTooLong {s t : TcpStream} {device : DeviceInfo} {others : List DeviceInfo}
      {imported : DeviceInfo × UsbipConnection} {e : IoError}
      (list : (listDevices replace s.output s.input).1 = .ok (device :: others))
      (imports : (importDevice replace device.busid t.output t.input).1 = .ok imported)
      (names : usbRawInit args.udcDriver args.udcDevice (mapSpeed imported.1.speed) = .error e) :
      Started replace args (opened args s ++ opened args t ++ handedOver) (.error (.io e))
  | serving {s t : TcpStream} {device : DeviceInfo} {others : List DeviceInfo}
      {imported : DeviceInfo × UsbipConnection} {raw : UsbRawInit} {init run : IoctlReply}
      (list : (listDevices replace s.output s.input).1 = .ok (device :: others))
      (imports : (importDevice replace device.busid t.output t.input).1 = .ok imported)
      (names : usbRawInit args.udcDriver args.udcDevice (mapSpeed imported.1.speed) = .ok raw)
      (initialized : init.Succeeds) (running : run.Succeeds) :
      Started replace args
        (opened args s ++ opened args t ++ handedOver ++ [⟨.init raw, init⟩, ⟨.run, run⟩])
        (.ok imported)

theorem runs_require {x : Except IoError α} {es : List (Program.Event SetupReply)}
    {r : Except StartupError α} (run : Runs (require x) es r) :
    es = [] ∧ r = x.mapError .io := by
  cases x <;> exact runs_done_iff.mp run

theorem connected_of_runs {es : List (Program.Event SetupReply)} {r : Except StartupError TcpStream}
    (run : Runs (connected args.serverAddr) es r) (clean : ∀ e ∈ es, setupFailure e = none) :
    ∃ stream, es = opened args stream ∧ r = .ok stream := by
  obtain ⟨_, stream, _, rfl, rfl, later, clean⟩ := runs_checked (fun _ => rfl) run clean
  obtain ⟨_, _, _, rfl, rfl, last, _⟩ := runs_checked (fun _ => rfl) later clean
  obtain ⟨rfl, rfl⟩ := runs_done_iff.mp last
  exact ⟨stream, rfl, rfl⟩

/-- A connection is made, and the rest works on it. -/
theorem runs_connected {f : TcpStream → Setup α} {es : List (Program.Event SetupReply)}
    {r : Except StartupError α} (run : Runs (connected args.serverAddr >>= f) es r)
    (clean : ∀ e ∈ es, setupFailure e = none) :
    ∃ stream rest, es = opened args stream ++ rest ∧ Runs (f stream) rest r := by
  rcases runs_bind_iff.mp run with ⟨e, failed, _⟩ | ⟨a, first, rest, rfl, ended, later⟩
  · obtain ⟨_, _, ⟨⟩⟩ := connected_of_runs failed clean
  · obtain ⟨stream, rfl, same⟩ := connected_of_runs ended (List.forall_mem_append.mp clean).1
    cases same
    exact ⟨a, rest, rfl, later⟩

theorem runs_listDevicesAt {es : List (Program.Event SetupReply)}
    {r : Except StartupError (List DeviceInfo)}
    (run : Runs (listDevicesAt replace args.serverAddr) es r)
    (clean : ∀ e ∈ es, setupFailure e = none) : ∃ s : TcpStream, es = opened args s ∧
      r = (listDevices replace s.output s.input).1.mapError .io := by
  obtain ⟨stream, rest, rfl, later⟩ := runs_connected run clean
  obtain ⟨rfl, rfl⟩ := runs_require later
  exact ⟨stream, List.append_nil _, rfl⟩

theorem runs_importDeviceAt {busid : String} {es : List (Program.Event SetupReply)}
    {r : Except StartupError (DeviceInfo × UsbipConnection)}
    (run : Runs (importDeviceAt replace args.serverAddr busid) es r)
    (clean : ∀ e ∈ es, setupFailure e = none) : ∃ t : TcpStream, es = opened args t ∧
      r = (importDevice replace busid t.output t.input).1.mapError .io := by
  obtain ⟨stream, rest, rfl, later⟩ := runs_connected run clean
  obtain ⟨rfl, rfl⟩ := runs_require later
  exact ⟨stream, List.append_nil _, rfl⟩

/-- The first device is imported, or the start is over. -/
theorem runs_importFirst {es : List (Program.Event SetupReply)}
    {r : Except StartupError (DeviceInfo × UsbipConnection)}
    (run : Runs (importFirst replace args) es r) (clean : ∀ e ∈ es, setupFailure e = none) :
    (∃ e, r = .error e ∧ Started replace args es (.error e)) ∨
      ∃ s t device others imported, es = opened args s ++ opened args t ∧
        (listDevices replace s.output s.input).1 = .ok (device :: others) ∧
        (importDevice replace device.busid t.output t.input).1 = .ok imported ∧
        r = .ok imported := by
  rcases runs_bind_iff.mp run with ⟨e, failed, rfl⟩ | ⟨devices, first, rest, rfl, ended, later⟩
  · obtain ⟨s, rfl, same⟩ := runs_listDevicesAt failed clean
    cases list : (listDevices replace s.output s.input).1 with
    | error e' =>
      rw [list] at same
      cases same
      exact .inl ⟨_, rfl, .listFails list⟩
    | ok devices =>
      rw [list] at same
      cases same
  · obtain ⟨before, after⟩ := List.forall_mem_append.mp clean
    obtain ⟨s, rfl, same⟩ := runs_listDevicesAt ended before
    have list : (listDevices replace s.output s.input).1 = .ok devices := by
      cases h : (listDevices replace s.output s.input).1 with
      | error e =>
        rw [h] at same
        cases same
      | ok devices' =>
        rw [h] at same
        cases same
        rfl
    cases devices with
    | nil =>
      obtain ⟨rfl, rfl⟩ := runs_done_iff.mp later
      rw [List.append_nil]
      exact .inl ⟨noDevices, rfl, .empty list⟩
    | cons device others =>
      obtain ⟨t, rfl, rfl⟩ := runs_importDeviceAt later after
      cases imports : (importDevice replace device.busid t.output t.input).1 with
      | error e => exact .inl ⟨_, rfl, .importFails list imports⟩
      | ok imported => exact .inr ⟨s, t, device, others, imported, rfl, list, imports, rfl⟩

theorem succeeds_of_checked {reply : IoctlReply} {u : Unit} (h : reply.checked = .ok u) :
    reply.Succeeds := by
  unfold IoctlReply.checked at h
  split at h
  · cases h
  · next succeeds => exact succeeds

theorem runs_initGadget {driverName deviceName : String} {speed : UsbSpeed}
    {es : List (Program.Event SetupReply)} {r : Except StartupError Unit}
    (run : Runs (initGadget driverName deviceName speed) es r)
    (clean : ∀ e ∈ es, setupFailure e = none) :
    (∃ e, usbRawInit driverName deviceName speed = .error e ∧ es = [] ∧ r = .error (.io e)) ∨
      ∃ raw init, usbRawInit driverName deviceName speed = .ok raw ∧ es = [⟨.init raw, init⟩] ∧
        init.Succeeds ∧ r = .ok () := by
  unfold initGadget at run
  cases names : usbRawInit driverName deviceName speed with
  | error e =>
    rw [names] at run
    obtain ⟨rfl, rfl⟩ := runs_done_iff.mp run
    exact .inl ⟨e, rfl, rfl, rfl⟩
  | ok raw =>
    rw [names] at run
    obtain ⟨init, _, _, rfl, checked, last, _⟩ :=
      runs_checked (o := .init raw) (fun _ => rfl) run clean
    obtain ⟨rfl, rfl⟩ := runs_done_iff.mp last
    exact .inr ⟨raw, init, rfl, rfl, succeeds_of_checked checked, rfl⟩

theorem runs_serve {devInfo : DeviceInfo} {es : List (Program.Event SetupReply)}
    {r : Except StartupError Unit} (run : Runs (serve args devInfo) es r)
    (clean : ∀ e ∈ es, setupFailure e = none) :
    (∃ e, usbRawInit args.udcDriver args.udcDevice (mapSpeed devInfo.speed) = .error e ∧
      es = handedOver ∧ r = .error (.io e)) ∨
      ∃ raw init run, usbRawInit args.udcDriver args.udcDevice (mapSpeed devInfo.speed) = .ok raw ∧
        es = handedOver ++ [⟨.init raw, init⟩, ⟨.run, run⟩] ∧ init.Succeeds ∧ run.Succeeds ∧
        r = .ok () := by
  obtain ⟨_, _, _, rfl, rfl, spawning, clean⟩ := runs_checked (fun _ => rfl) run clean
  obtain ⟨_, _, rfl, opening⟩ := runs_op_iff.mp spawning
  obtain ⟨_, clean⟩ := List.forall_mem_cons.mp clean
  obtain ⟨_, _, _, rfl, rfl, later, clean⟩ := runs_checked (fun _ => rfl) opening clean
  rcases runs_bind_iff.mp later with ⟨e, failed, rfl⟩ | ⟨_, first, rest, rfl, ended, running⟩
  · rcases runs_initGadget failed clean with ⟨e', names, rfl, same⟩ | ⟨_, _, _, _, _, ⟨⟩⟩
    cases same
    exact .inl ⟨e', names, rfl, rfl⟩
  · obtain ⟨before, after⟩ := List.forall_mem_append.mp clean
    rcases runs_initGadget ended before with ⟨_, _, _, ⟨⟩⟩ | ⟨raw, init, names, rfl, initialized, _⟩
    obtain ⟨runReply, _, _, rfl, checked, last, _⟩ := runs_checked (fun _ => rfl) running after
    obtain ⟨rfl, rfl⟩ := runs_done_iff.mp last
    exact .inr ⟨raw, init, runReply, names, rfl, initialized, succeeds_of_checked checked, rfl⟩

theorem started_of_clean {es : List (Program.Event SetupReply)}
    {r : Except StartupError (DeviceInfo × UsbipConnection)}
    (run : Runs (startup replace args) es r) (clean : ∀ e ∈ es, setupFailure e = none) :
    Started replace args es r := by
  rcases runs_bind_iff.mp run with ⟨e, failed, rfl⟩ | ⟨imported, first, rest, rfl, ended, later⟩
  · rcases runs_importFirst failed clean with ⟨_, ⟨⟩, started⟩ | ⟨_, _, _, _, _, _, _, _, ⟨⟩⟩
    exact started
  · obtain ⟨before, after⟩ := List.forall_mem_append.mp clean
    rcases runs_importFirst ended before with
      ⟨_, ⟨⟩, _⟩ | ⟨s, t, device, others, _, rfl, list, imports, ⟨⟩⟩
    rcases runs_bind_iff.mp later with ⟨e, failed, rfl⟩ | ⟨_, serving, last, rfl, ended, done⟩
    · rcases runs_serve failed after with ⟨_, names, rfl, ⟨⟩⟩ | ⟨_, _, _, _, _, _, _, ⟨⟩⟩
      exact .nameTooLong list imports names
    · rcases runs_serve ended (List.forall_mem_append.mp after).1 with
        ⟨_, _, _, ⟨⟩⟩ | ⟨raw, init, run, names, rfl, initialized, running, _⟩
      obtain ⟨rfl, rfl⟩ := runs_done_iff.mp done
      rw [List.append_nil, ← List.append_assoc]
      exact .serving list imports names initialized running

theorem runs_result {reply : IoctlReply} (succeeds : reply.Succeeds) :
    Runs (require reply.checked >>= fun _ => (pure () : Setup Unit)) [] (.ok ()) := by
  have ok : reply.checked = .ok () := if_neg succeeds
  rw [ok]
  exact .nil

/-- Nothing else keeps it from the event loop. -/
theorem runs_startup {s t : TcpStream} {device : DeviceInfo} {others : List DeviceInfo}
    {imported : DeviceInfo × UsbipConnection} {raw : UsbRawInit} {init run : IoctlReply}
    (list : (listDevices replace s.output s.input).1 = .ok (device :: others))
    (imports : (importDevice replace device.busid t.output t.input).1 = .ok imported)
    (names : usbRawInit args.udcDriver args.udcDevice (mapSpeed imported.1.speed) = .ok raw)
    (initialized : init.Succeeds) (running : run.Succeeds) :
    Runs (startup replace args)
      (opened args s ++ opened args t ++ handedOver ++ [⟨.init raw, init⟩, ⟨.run, run⟩])
      (.ok imported) := by
  have connects (stream : TcpStream) :
      Runs (connected args.serverAddr) (opened args stream) (.ok stream) := .cons (.cons .nil)
  have lists : Runs (listDevicesAt replace args.serverAddr) (opened args s)
      (.ok (device :: others)) := by
    refine runs_bind_iff.mpr (.inr ⟨s, _, [], (List.append_nil _).symm, connects s, ?_⟩)
    rw [list]
    exact .nil
  have imported' : Runs (importDeviceAt replace args.serverAddr device.busid) (opened args t)
      (.ok imported) := by
    refine runs_bind_iff.mpr (.inr ⟨t, _, [], (List.append_nil _).symm, connects t, ?_⟩)
    rw [imports]
    exact .nil
  have gadget : Runs (initGadget args.udcDriver args.udcDevice (mapSpeed imported.1.speed))
      [⟨.init raw, init⟩] (.ok ()) := by
    unfold initGadget
    rw [names]
    exact .cons (runs_result initialized)
  have serves : Runs (serve args imported.1) (handedOver ++ [⟨.init raw, init⟩, ⟨.run, run⟩])
      (.ok ()) := by
    refine .cons (.cons (.cons ?_))
    show Runs (initGadget args.udcDriver args.udcDevice (mapSpeed imported.1.speed) >>=
      fun _ => runGadget) _ _
    have runs : Runs runGadget [⟨.run, run⟩] (.ok ()) := .cons (runs_result running)
    exact runs_bind_iff.mpr (.inr ⟨(), [⟨.init raw, init⟩], _, rfl, gadget, runs⟩)
  rw [List.append_assoc]
  refine runs_bind_iff.mpr (.inr ⟨imported, _, _, rfl, ?_, ?_⟩)
  · exact runs_bind_iff.mpr (.inr ⟨_, _, _, rfl, lists, imported'⟩)
  · exact runs_bind_iff.mpr (.inr ⟨(), _, [], (List.append_nil _).symm, serves, .nil⟩)

end Ends

/-! ## What the kernel is told -/

theorem toList_padded {n : ℕ} {name : String} (short : (utf8 name).length ≤ n) :
    (padded n name).toList = utf8 name ++ List.replicate (n - (utf8 name).length) 0 := by
  show (utf8 name ++ List.replicate n 0).take n = _
  rw [List.take_append, List.take_of_length_le short, List.take_replicate, Nat.min_eq_left]
  omega

theorem beforeNul_padded {n : ℕ} {name : String} (short : (utf8 name).length ≤ n) :
    beforeNul (padded n name).toList = beforeNul (utf8 name) := by
  rw [toList_padded short, beforeNul, List.takeWhile_append]
  split
  · next all =>
    have none (k : ℕ) : (List.replicate k (0 : UInt8)).takeWhile (· ≠ 0) = [] := by
      cases k <;> simp [List.replicate_succ]
    rw [none, List.append_nil, beforeNul, (List.takeWhile_prefix _).eq_of_length all]
  · rfl

theorem nul_mem_padded {n : ℕ} {name : String} (short : (utf8 name).length < n) :
    0 ∈ (padded n name).toList := by
  rw [toList_padded (Nat.le_of_lt short), List.mem_append, List.mem_replicate]
  exact .inr ⟨by omega, rfl⟩

/-- The speeds have the same numbers on both sides. -/
theorem toUInt8_mapSpeed (speed : UInt32) : (mapSpeed speed).toUInt8.toNat =
    if speed.toNat ≤ 6 then speed.toNat else 0 := by
  unfold mapSpeed
  split
  case h_7 not1 not2 not3 not4 not5 not6 =>
    have ne (k : UInt32) (h : speed = k → False) : speed.toNat ≠ k.toNat :=
      fun same => h (UInt32.toNat_inj.mp same)
    have ne1 : speed.toNat ≠ 1 := ne 1 not1
    have ne2 : speed.toNat ≠ 2 := ne 2 not2
    have ne3 : speed.toNat ≠ 3 := ne 3 not3
    have ne4 : speed.toNat ≠ 4 := ne 4 not4
    have ne5 : speed.toNat ≠ 5 := ne 5 not5
    have ne6 : speed.toNat ≠ 6 := ne 6 not6
    show 0 = _
    split <;> omega
  all_goals rfl

/-- What the kernel makes of the argument, reading the names as C strings. -/
structure UsbRawInit.Announces (raw : UsbRawInit) (driverName deviceName : String)
    (speed : UInt32) : Prop where
  driver : beforeNul raw.driverName.toList = beforeNul (utf8 driverName)
  device : beforeNul raw.deviceName.toList = beforeNul (utf8 deviceName)
  terminated : 0 ∈ raw.driverName.toList ∧ 0 ∈ raw.deviceName.toList
  speed : raw.speed.toNat = if speed.toNat ≤ 6 then speed.toNat else 0

theorem announces_of_usbRawInit {driverName deviceName : String} {speed : UInt32}
    {raw : UsbRawInit} (h : usbRawInit driverName deviceName (mapSpeed speed) = .ok raw) :
    raw.Announces driverName deviceName speed := by
  obtain ⟨driver, device, rfl⟩ := usbRawInit_eq h
  exact ⟨beforeNul_padded (Nat.le_of_lt driver), beforeNul_padded (Nat.le_of_lt device),
    ⟨nul_mem_padded driver, nul_mem_padded device⟩, toUInt8_mapSpeed speed⟩

/-! ## The start as a whole -/

/-- The event loop is entered with the first device of the list, imported by its
name, and a gadget for it. -/
inductive FirstServed (replace : List UInt8 → String) (args : Args) :
    List (Program.Event SetupReply) → DeviceInfo → UsbipConnection → Prop
  | mk {s t : TcpStream} {first : DeviceRecord} {others : List DeviceRecord}
      {version version' : UInt16} {rest rest' : List UInt8} {wire : WireDeviceInfo}
      {output : Output} {raw : UsbRawInit} {init run : IoctlReply}
      (listed : s.input.bytes = recordsReply version (first :: others) ++ rest)
      (requested : output.sent = t.output.sent ++
        OpReqImport.format.put (importRequest (first.toInfo replace).busid))
      (granted : t.input.bytes = importReply version' wire ++ rest')
      (announced : raw.Announces args.udcDriver args.udcDevice wire.speed)
      (initialized : init.Succeeds) (running : run.Succeeds) :
      FirstServed replace args
        (opened args s ++ opened args t ++ handedOver ++ [⟨.init raw, init⟩, ⟨.run, run⟩])
        (wire.toInfo replace)
        (.imported ⟨rest', t.input.failure⟩ output wire.busnum wire.devnum)

theorem Started.firstServed {replace : List UInt8 → String} {args : Args}
    {es : List (Program.Event SetupReply)} {dev : DeviceInfo} {conn : UsbipConnection}
    (h : Started replace args es (.ok (dev, conn))) : FirstServed replace args es dev conn := by
  cases h with
  | serving list imports names initialized running =>
    obtain ⟨version, records, rest, _, listed, devices⟩ := listed_of_ok list
    obtain ⟨version', wire, rest', output, granted, rfl, requested, rfl⟩ := imported_of_ok imports
    cases records with
    | nil => cases devices
    | cons first others =>
      obtain ⟨rfl, _⟩ := List.cons.inj devices
      exact .mk listed requested granted (announces_of_usbRawInit names) initialized running

/-- Wherever `main` stands in front of its event loop, its operations are an initial
part of those of the start, and it stops at the first of them that fails, or with
what the server has sent, or the name, that it cannot use. It gets to the event
loop exactly when every step succeeds, and then to the system of a freshly imported
device with the first device of the list. -/
theorem startup_first_listed {replace : List UInt8 → String} {args : Args}
    {es : List (Program.Event SetupReply)} {q : Setup (DeviceInfo × UsbipConnection)}
    (run : After (startup replace args) es q) :
    (∃ speed, es.map Program.Event.op <+: setupOps args speed) ∧
    (∀ r, q = .done r → Started replace args es r ∨ ∃ before last e, es = before ++ [last] ∧
      (∀ x ∈ before, setupFailure x = none) ∧ setupFailure last = some e ∧ r = .error e) ∧
    (∀ es imported, Runs (startup replace args) es (.ok imported) ↔
      Started replace args es (.ok imported)) ∧
    ∀ dev conn, q = .done (.ok (dev, conn)) → FirstServed replace args es dev conn ∧
      ∀ build, ∃ input output busnum devnum, System.new (.new (.ofConnection build conn)) =
        .imported build input output busnum devnum := by
  have ends {es : List (Program.Event SetupReply)}
      {r : Except StartupError (DeviceInfo × UsbipConnection)}
      (run : Runs (startup replace args) es r) :
      Started replace args es r ∨ ∃ before last e, es = before ++ [last] ∧
        (∀ x ∈ before, setupFailure x = none) ∧ setupFailure last = some e ∧ r = .error e := by
    rcases (stops_startup replace args).of_runs run with
      clean | ⟨before, last, rfl, clean, stopped⟩
    · exact .inl (started_of_clean run fun e he => failing_eq_none.mp (clean e he))
    · obtain ⟨e, failed, rfl⟩ := Option.map_eq_some_iff.mp stopped
      exact .inr ⟨before, last, e, rfl, fun x hx => failing_eq_none.mp (clean x hx), failed, rfl⟩
  have reached {es : List (Program.Event SetupReply)} {imported : DeviceInfo × UsbipConnection}
      (run : Runs (startup replace args) es (.ok imported)) :
      Started replace args es (.ok imported) := by
    rcases ends run with started | ⟨_, _, _, _, _, _, ⟨⟩⟩
    exact started
  refine ⟨after_startup replace args run, ?_, fun es imported => ⟨reached, fun started => ?_⟩, ?_⟩
  · rintro r rfl
    exact ends run
  · cases started with
    | serving list imports names initialized running =>
      exact runs_startup list imports names initialized running
  · rintro dev conn rfl
    have first := (reached run).firstServed
    cases first with
    | mk => exact ⟨(reached run).firstServed, fun build => ⟨_, _, _, _, rfl⟩⟩

/-! The only device of the list is imported. -/

def dummyUdc : Args := ⟨"localhost", 3240, "dummy_udc", "dummy_udc.0"⟩

def keyboardStream (bytes : List UInt8) : TcpStream := ⟨⟨[], []⟩, bytes, ⟨.unexpectedEof, ""⟩⟩

theorem startup_first_listed_keyboard : ∃ es dev conn,
    FirstServed toString dummyUdc es dev conn ∧ dev.speed = 2 := by
  let keyboard := fullWidthKeyboard.record
  let s := keyboardStream (recordsReply usbipVersion [keyboard])
  let t := keyboardStream (importReply usbipVersion keyboard.wire)
  have accepts (bytes : List UInt8) : (keyboardStream bytes).output.Accepts := by
    simp [Output.Accepts, keyboardStream]
  have list : (listDevices toString s.output s.input).1 = .ok [keyboard.toInfo toString] :=
    (listDevices_ok_iff (accepts _)).mpr
      ⟨usbipVersion, [keyboard], [], by decide, (List.append_nil _).symm, rfl⟩
  have imports : (importDevice toString (keyboard.toInfo toString).busid t.output t.input).1 =
      .ok _ :=
    (importDevice_ok_iff (accepts _)).mpr
      ⟨usbipVersion, keyboard.wire, [], (List.append_nil _).symm, rfl, rfl⟩
  have names : usbRawInit dummyUdc.udcDriver dummyUdc.udcDevice .full = .ok _ := rfl
  have success : (⟨0, 0, []⟩ : IoctlReply).Succeeds := by decide
  have run := runs_startup list imports names success success
  obtain ⟨_, _, _, serves⟩ := startup_first_listed run
  exact ⟨_, _, _, (serves _ _ rfl).1, rfl⟩

end UsbipDevirt
