import UsbipDevirt.Client
import UsbipDevirt.Lib.Decoder

/-!
# The device list

`list_devices` on a connected socket: the OP_REQ_DEVLIST it sends and the
decoding of the OP_REP_DEVLIST it gets. The records of the reply are the
`WireDeviceInfo` of each device, followed by as many `WireInterfaceInfo` as its
`num_interfaces` says.
-/

namespace UsbipDevirt

open Bytes Decoder

/-! ## Records -/

def usbipVersion : UInt16 := 0x0111

def opReqDevlist : UInt16 := 0x8005
def opRepDevlist : UInt16 := 0x0005

def pathLen : ℕ := 256
def busidLen : ℕ := 32

/-- USB interface information. -/
structure InterfaceInfo where
  «class» : UInt8
  subClass : UInt8
  protocol : UInt8
  deriving DecidableEq

/-- USB device information from a USB/IP server. -/
structure DeviceInfo where
  path : String
  busid : String
  busnum : UInt32
  devnum : UInt32
  speed : UInt32
  idVendor : UInt16
  idProduct : UInt16
  bcdDevice : UInt16
  deviceClass : UInt8
  deviceSubClass : UInt8
  deviceProtocol : UInt8
  configurationValue : UInt8
  numConfigurations : UInt8
  numInterfaces : UInt8
  interfaces : List InterfaceInfo
  deriving DecidableEq

structure OpHeader where
  version : UInt16
  code : UInt16
  status : UInt32
  deriving DecidableEq

def OpHeader.format : Format OpHeader :=
  (u16be.pair <| u16be.pair u32be).map
  { toFun := fun (a, b, c) => ⟨a, b, c⟩
    invFun := fun h => (h.version, h.code, h.status)
    left_inv := fun _ => rfl
    right_inv := fun _ => rfl }

structure OpRepDevlistHeader where
  header : OpHeader
  numDevices : UInt32
  deriving DecidableEq

def OpRepDevlistHeader.format : Format OpRepDevlistHeader :=
  (OpHeader.format.pair u32be).map
  { toFun := fun (a, b) => ⟨a, b⟩
    invFun := fun h => (h.header, h.numDevices)
    left_inv := fun _ => rfl
    right_inv := fun _ => rfl }

structure WireDeviceInfo where
  path : List.Vector UInt8 pathLen
  busid : List.Vector UInt8 busidLen
  busnum : UInt32
  devnum : UInt32
  speed : UInt32
  idVendor : UInt16
  idProduct : UInt16
  bcdDevice : UInt16
  deviceClass : UInt8
  deviceSubClass : UInt8
  deviceProtocol : UInt8
  configurationValue : UInt8
  numConfigurations : UInt8
  numInterfaces : UInt8
  deriving DecidableEq

def WireDeviceInfo.format : Format WireDeviceInfo :=
  ((raw pathLen).pair <| (raw busidLen).pair <| u32be.pair <| u32be.pair <| u32be.pair <|
    u16be.pair <| u16be.pair <| u16be.pair <| u8.pair <| u8.pair <| u8.pair <| u8.pair <|
    u8.pair u8).map
  { toFun := fun (a, b, c, d, e, f, g, h, i, j, k, l, m, n) =>
      ⟨a, b, c, d, e, f, g, h, i, j, k, l, m, n⟩
    invFun := fun w => (w.path, w.busid, w.busnum, w.devnum, w.speed, w.idVendor, w.idProduct,
      w.bcdDevice, w.deviceClass, w.deviceSubClass, w.deviceProtocol, w.configurationValue,
      w.numConfigurations, w.numInterfaces)
    left_inv := fun _ => rfl
    right_inv := fun _ => rfl }

structure WireInterfaceInfo where
  «class» : UInt8
  subClass : UInt8
  protocol : UInt8
  padding : UInt8
  deriving DecidableEq

def WireInterfaceInfo.format : Format WireInterfaceInfo :=
  (u8.pair <| u8.pair <| u8.pair u8).map
  { toFun := fun (a, b, c, d) => ⟨a, b, c, d⟩
    invFun := fun w => (w.«class», w.subClass, w.protocol, w.padding)
    left_inv := fun _ => rfl
    right_inv := fun _ => rfl }

/-! The sizes the source asserts at compile time. -/

@[simp] theorem OpHeader.format_width : OpHeader.format.width = 8 := rfl

@[simp] theorem OpRepDevlistHeader.format_width : OpRepDevlistHeader.format.width = 12 := rfl

@[simp] theorem WireDeviceInfo.format_width : WireDeviceInfo.format.width = 312 := rfl

@[simp] theorem WireInterfaceInfo.format_width : WireInterfaceInfo.format.width = 4 := rfl

/-! ## Strings -/

/-- The bytes of a string. -/
def utf8 (s : String) : List UInt8 := s.toUTF8.data.toList

/-- `String::from_utf8_lossy`, which keeps valid UTF-8; `replace` is what it
does with other bytes. -/
def fromUtf8Lossy (replace : List UInt8 → String) (bytes : List UInt8) : String :=
  (String.fromUTF8? ⟨bytes.toArray⟩).getD (replace bytes)

def bytesToString (replace : List UInt8 → String) (bytes : List UInt8) : String :=
  fromUtf8Lossy replace (bytes.take (bytes.findIdx (· == 0)))

/-- A string in a field of `n` bytes, padded with zeros. -/
def padded (n : ℕ) (s : String) : List.Vector UInt8 n :=
  ⟨(utf8 s ++ List.replicate n 0).take n, by simp⟩

/-- The string has a place in a field of `n` bytes, without a terminator of its own. -/
structure FitsField (n : ℕ) (s : String) : Prop where
  length : (utf8 s).length ≤ n
  noNul : 0 ∉ utf8 s

theorem fromUtf8Lossy_utf8 (replace : List UInt8 → String) (s : String) :
    fromUtf8Lossy replace (utf8 s) = s := by
  have valid : s.toByteArray.IsValidUTF8 := s.isValidUTF8
  simp [fromUtf8Lossy, utf8, String.fromUTF8?, String.fromUTF8, valid]

/-- A string that fills its field has no terminator, and needs none. -/
theorem bytesToString_padded (replace : List UInt8 → String) {n : ℕ} {s : String}
    (fits : FitsField n s) : bytesToString replace (padded n s).toList = s := by
  have field : (padded n s).toList = utf8 s ++ List.replicate (n - (utf8 s).length) 0 := by
    have short := fits.length
    change (utf8 s ++ List.replicate n 0).take n = _
    rw [List.take_append, List.take_of_length_le short, List.take_replicate, Nat.min_eq_left]
    omega
  have terminator : (padded n s).toList.findIdx (· == 0) = (utf8 s).length := by
    have none : (utf8 s).findIdx (· == 0) = (utf8 s).length := by
      rw [List.findIdx_eq_length]
      intro b hb
      have nonzero : b ≠ 0 := fun zero => fits.noNul (zero ▸ hb)
      simpa using nonzero
    rw [field, List.findIdx_append, none, if_neg (Nat.lt_irrefl _)]
    have atOnce (k : ℕ) : (List.replicate k (0 : UInt8)).findIdx (· == 0) = 0 := by
      cases k <;> simp [List.replicate_succ, List.findIdx_cons]
    rw [atOnce, Nat.zero_add]
  rw [bytesToString, terminator, field, List.take_left, fromUtf8Lossy_utf8]

/-! ## Decoding -/

/-- `read_wire` on a socket with these bytes and this failure behind them. -/
def readWire {α : Type} (failure : IoError) (f : Format α) : Decoder IoError α := fun bytes =>
  match Input.readExact ⟨bytes, failure⟩ f.width with
  | (.error e, _) => .error e
  | (.ok val, r) => .ok (f.get val, r.bytes)

/-- `DeviceInfo::from` -/
def WireDeviceInfo.toInfo (replace : List UInt8 → String) (w : WireDeviceInfo) : DeviceInfo where
  path := bytesToString replace w.path.toList
  busid := bytesToString replace w.busid.toList
  busnum := w.busnum
  devnum := w.devnum
  speed := w.speed
  idVendor := w.idVendor
  idProduct := w.idProduct
  bcdDevice := w.bcdDevice
  deviceClass := w.deviceClass
  deviceSubClass := w.deviceSubClass
  deviceProtocol := w.deviceProtocol
  configurationValue := w.configurationValue
  numConfigurations := w.numConfigurations
  numInterfaces := w.numInterfaces
  interfaces := []

/-- `InterfaceInfo::from` -/
def WireInterfaceInfo.toInfo (w : WireInterfaceInfo) : InterfaceInfo :=
  ⟨w.«class», w.subClass, w.protocol⟩

/-- The number as `{:04x}` prints it. -/
def hex4 (n : UInt16) : String :=
  String.ofList ((Nat.toDigits 16 n.toNat).leftpad 4 '0')

def unexpectedReply (code : UInt16) : IoError :=
  ⟨.invalidData, s!"unexpected reply code: 0x{hex4 code}"⟩

def errorStatus (status : UInt32) : IoError :=
  ⟨.other, s!"server returned error status: {status}"⟩

/-- One iteration of the inner loop. -/
def readInterface (failure : IoError) : Decoder IoError InterfaceInfo :=
  (readWire failure WireInterfaceInfo.format).bind fun wireIface => pure wireIface.toInfo

/-- One iteration of the outer loop. -/
def readDevice (replace : List UInt8 → String) (failure : IoError) : Decoder IoError DeviceInfo :=
  (readWire failure WireDeviceInfo.format).bind fun wireDev =>
    ((readInterface failure).times wireDev.numInterfaces.toNat).bind fun interfaces =>
      pure { wireDev.toInfo replace with interfaces }

/-- `list_devices` from the reply header on. -/
def readDevlist (replace : List UInt8 → String) (failure : IoError) :
    Decoder IoError (List DeviceInfo) :=
  (readWire failure OpRepDevlistHeader.format).bind fun rep =>
    if rep.header.code ≠ opRepDevlist then fail (unexpectedReply rep.header.code)
    else if rep.header.status ≠ 0 then fail (errorStatus rep.header.status)
    else (readDevice replace failure).times rep.numDevices.toNat

def devlistRequest : OpHeader := ⟨usbipVersion, opReqDevlist, 0⟩

/-- `Vec::with_capacity` of the announced length is taken to return; it aborts where there is
no room for that. -/
def listDevices (replace : List UInt8 → String) (w : Output) (r : Input) :
    Except IoError (List DeviceInfo) × Output :=
  match w.writeAll (OpHeader.format.put devlistRequest) with
  | (.error e, w) => (.error e, w)
  | (.ok _, w) =>
    match w.flush with
    | (.error e, w) => (.error e, w)
    | (.ok _, w) =>
      match readDevlist replace r.failure r.bytes with
      | .error e => (.error e, w)
      | .ok (devices, _) => (.ok devices, w)

theorem readWire_eq {α : Type} (failure : IoError) (f : Format α) :
    readWire failure f = Decoder.field failure f := by
  funext bytes
  by_cases enough : f.width ≤ bytes.length
  · simp [readWire, Input.readExact, Decoder.field, enough]
  · simp [readWire, Input.readExact, Decoder.field, enough]

/-! ## The reply -/

def InterfaceInfo.toWire (i : InterfaceInfo) (padding : UInt8) : WireInterfaceInfo :=
  ⟨i.«class», i.subClass, i.protocol, padding⟩

def DeviceInfo.toWire (d : DeviceInfo) : WireDeviceInfo where
  path := padded pathLen d.path
  busid := padded busidLen d.busid
  busnum := d.busnum
  devnum := d.devnum
  speed := d.speed
  idVendor := d.idVendor
  idProduct := d.idProduct
  bcdDevice := d.bcdDevice
  deviceClass := d.deviceClass
  deviceSubClass := d.deviceSubClass
  deviceProtocol := d.deviceProtocol
  configurationValue := d.configurationValue
  numConfigurations := d.numConfigurations
  numInterfaces := d.numInterfaces

/-- A device as a server lists it, each interface with the padding byte of its
record. -/
structure Exported where
  info : DeviceInfo
  records : List (InterfaceInfo × UInt8)
  interfaces : info.interfaces = records.map Prod.fst
  count : info.numInterfaces.toNat = records.length
  path : FitsField pathLen info.path
  busid : FitsField busidLen info.busid

def encodeInterface (record : InterfaceInfo × UInt8) : List UInt8 :=
  WireInterfaceInfo.format.put (record.1.toWire record.2)

def Exported.encode (d : Exported) : List UInt8 :=
  WireDeviceInfo.format.put d.info.toWire ++ d.records.flatMap encodeInterface

/-- The server's answer; the client does not look at the version. -/
def devlistReply (version : UInt16) (devices : List Exported) : List UInt8 :=
  OpRepDevlistHeader.format.put ⟨⟨version, opRepDevlist, 0⟩, UInt32.ofNat devices.length⟩ ++
    devices.flatMap Exported.encode

theorem decodes_wire {α : Type} (failure : IoError) (f : Format α) (a : α) :
    Decodes failure (readWire failure f) (f.put a) a := by
  rw [readWire_eq]
  exact .field f a

/-- A device of a reply as its bytes are, whatever the strings hold. -/
structure DeviceRecord where
  wire : WireDeviceInfo
  interfaces : List WireInterfaceInfo
  count : wire.numInterfaces.toNat = interfaces.length

def DeviceRecord.encode (d : DeviceRecord) : List UInt8 :=
  WireDeviceInfo.format.put d.wire ++ d.interfaces.flatMap WireInterfaceInfo.format.put

def DeviceRecord.toInfo (replace : List UInt8 → String) (d : DeviceRecord) : DeviceInfo :=
  { d.wire.toInfo replace with interfaces := d.interfaces.map WireInterfaceInfo.toInfo }

def recordsReply (version : UInt16) (records : List DeviceRecord) : List UInt8 :=
  OpRepDevlistHeader.format.put ⟨⟨version, opRepDevlist, 0⟩, UInt32.ofNat records.length⟩ ++
    records.flatMap DeviceRecord.encode

theorem decodes_record (replace : List UInt8 → String) (failure : IoError) (d : DeviceRecord) :
    Decodes failure (readDevice replace failure) d.encode (d.toInfo replace) := by
  have loop : Decodes failure ((readInterface failure).times d.wire.numInterfaces.toNat)
      (d.interfaces.flatMap WireInterfaceInfo.format.put)
      (d.interfaces.map WireInterfaceInfo.toInfo) := by
    rw [d.count]
    exact .times fun wire _ => (decodes_wire failure _ wire).map WireInterfaceInfo.toInfo
  exact (decodes_wire failure _ d.wire).bind
    (loop.map fun interfaces => { d.wire.toInfo replace with interfaces })

/-- The client reads the list from the reply, and nothing but the list. -/
theorem decodes_records (replace : List UInt8 → String) (failure : IoError) (version : UInt16)
    {records : List DeviceRecord} (few : records.length < 2 ^ 32) :
    Decodes failure (readDevlist replace failure) (recordsReply version records)
      (records.map (DeviceRecord.toInfo replace)) := by
  have count : (UInt32.ofNat records.length).toNat = records.length :=
    UInt32.toNat_ofNat_of_lt' few
  have loop : Decodes failure
      ((readDevice replace failure).times (UInt32.ofNat records.length).toNat)
      (records.flatMap DeviceRecord.encode) (records.map (DeviceRecord.toInfo replace)) := by
    rw [count]
    exact .times fun d _ => decodes_record replace failure d
  exact (decodes_wire failure _ _).bind loop

def Exported.record (d : Exported) : DeviceRecord where
  wire := d.info.toWire
  interfaces := d.records.map fun record => record.1.toWire record.2
  count := by rw [List.length_map]; exact d.count

theorem Exported.encode_record (d : Exported) : d.record.encode = d.encode := by
  simp only [record, DeviceRecord.encode, List.flatMap_map]
  rfl

/-- The strings survive their fields, so the record stands for the whole device. -/
theorem Exported.toInfo_record (replace : List UInt8 → String) (d : Exported) :
    d.record.toInfo replace = d.info := by
  have path := bytesToString_padded replace d.path
  have busid := bytesToString_padded replace d.busid
  have interfaces : d.record.interfaces.map WireInterfaceInfo.toInfo = d.info.interfaces := by
    rw [d.interfaces, record, List.map_map]
    rfl
  rw [DeviceRecord.toInfo, interfaces]
  simp only [record, DeviceInfo.toWire, WireDeviceInfo.toInfo, path, busid]

theorem decodes_devlist (replace : List UInt8 → String) (failure : IoError) (version : UInt16)
    {devices : List Exported} (few : devices.length < 2 ^ 32) :
    Decodes failure (readDevlist replace failure) (devlistReply version devices)
      (devices.map Exported.info) := by
  have fewRecords : (devices.map Exported.record).length < 2 ^ 32 := by rwa [List.length_map]
  have decodes := decodes_records replace failure version fewRecords
  have bytes : recordsReply version (devices.map Exported.record) =
      devlistReply version devices := by
    rw [recordsReply, List.length_map, List.flatMap_map, devlistReply]
    simp only [Exported.encode_record]
  have infos : (devices.map Exported.record).map (DeviceRecord.toInfo replace) =
      devices.map Exported.info := by
    rw [List.map_map]
    exact List.map_congr_left fun d _ => d.toInfo_record replace
  rwa [bytes, infos] at decodes

/-- Once the request is sent, the result is what the reader makes of the reply. -/
theorem listDevices_result (replace : List UInt8 → String) {w : Output} (accepts : w.Accepts)
    (r : Input) : (listDevices replace w r).1 =
      (readDevlist replace r.failure r.bytes).map Prod.fst := by
  obtain ⟨w₁, written, accepts₁⟩ := accepts.writeAll (OpHeader.format.put devlistRequest)
  obtain ⟨w₂, flushed, _⟩ := accepts₁.writeAll []
  simp only [listDevices, written, Output.flush, flushed]
  cases readDevlist replace r.failure r.bytes <;> rfl

/-- `list_devices` inverts the format of the reply, whatever follows it, and a
reply that ends early is reported. -/
theorem devlist_decoded (replace : List UInt8 → String) (version : UInt16)
    (devices : List Exported) (few : devices.length < 2 ^ 32) (failure : IoError) (w : Output)
    (accepts : w.Accepts) :
    (∀ rest, (listDevices replace w ⟨devlistReply version devices ++ rest, failure⟩).1 =
      .ok (devices.map Exported.info)) ∧
    ∀ front, front <+: devlistReply version devices → front ≠ devlistReply version devices →
      (listDevices replace w ⟨front, failure⟩).1 = .error failure := by
  have decodes := decodes_devlist replace failure version few
  constructor
  · intro rest
    rw [listDevices_result replace accepts, decodes.whole]
    rfl
  · intro front isPrefix proper
    rw [listDevices_result replace accepts, decodes.cut front isPrefix proper]
    rfl

/-- A keyboard whose name fills its field. -/
def fullWidthKeyboard : Exported where
  info := ⟨"/sys/devices/usb1/1-1", "1-1.2.3.4.5.6.7-with-32-bytes...", 1, 2, 2, 0x046d, 0xc31c,
    0x4920, 0, 0, 0, 1, 1, 2, [⟨3, 1, 1⟩, ⟨3, 0, 0⟩]⟩
  records := [(⟨3, 1, 1⟩, 0), (⟨3, 0, 0⟩, 0xff)]
  interfaces := rfl
  count := rfl
  path := ⟨by decide, by decide⟩
  busid := ⟨by decide, by decide⟩

/-- A hub behind it, with one interface. -/
def listedHub : Exported where
  info := ⟨"/sys/devices/usb1/1-2", "1-2", 1, 3, 3, 0x05e3, 0x0608, 0x6070, 9, 0, 1, 1, 1, 1,
    [⟨9, 0, 0⟩]⟩
  records := [(⟨9, 0, 0⟩, 0)]
  interfaces := rfl
  count := rfl
  path := ⟨by decide, by decide⟩
  busid := ⟨by decide, by decide⟩

theorem devlist_decoded_two :
    (listDevices toString ⟨[], []⟩
      ⟨devlistReply 0x0111 [fullWidthKeyboard, listedHub], ⟨.unexpectedEof, ""⟩⟩).1 =
        .ok [fullWidthKeyboard.info, listedHub.info] ∧
    (listDevices toString ⟨[], []⟩
      ⟨(devlistReply 0x0111 [fullWidthKeyboard, listedHub]).dropLast, ⟨.unexpectedEof, ""⟩⟩).1 =
        .error ⟨.unexpectedEof, ""⟩ := by
  obtain ⟨whole, cut⟩ := devlist_decoded toString 0x0111 [fullWidthKeyboard, listedHub]
    (by decide) ⟨.unexpectedEof, ""⟩ ⟨[], []⟩ (by simp [Output.Accepts])
  have shorter : (devlistReply 0x0111 [fullWidthKeyboard, listedHub]).dropLast ≠
      devlistReply 0x0111 [fullWidthKeyboard, listedHub] := by
    intro same
    have lengths := congrArg List.length same
    simp [devlistReply] at lengths
  exact ⟨by simpa using whole [], cut _ (List.dropLast_prefix _) shorter⟩

end UsbipDevirt
