import UsbipDevirt.Protocol

/-!
# The raw-gadget device

The types that cross `/dev/raw-gadget` and what the wrapper functions do with
the kernel's answers. A pointer argument is a region of bytes: the call hands
over what the region holds, and the kernel may overwrite it from its start.
Words are little-endian, as on the machines the bridge runs on.
-/

namespace UsbipDevirt

open Bytes

/-! ## USB types -/

def usbDirIn : UInt8 := 0x80

def usbReqSetAddress : UInt8 := 0x05
def usbReqGetDescriptor : UInt8 := 0x06
def usbReqSetConfiguration : UInt8 := 0x09

def usbDtEndpoint : UInt8 := 0x05

/-- `struct usb_ctrlrequest` -/
structure UsbCtrlRequest where
  bRequestType : UInt8
  bRequest : UInt8
  wValue : UInt16
  wIndex : UInt16
  wLength : UInt16
  deriving DecidableEq

def UsbCtrlRequest.format : Format UsbCtrlRequest :=
  (u8.pair <| u8.pair <| u16le.pair <| u16le.pair u16le).map
  { toFun := fun (a, b, c, d, e) => ⟨a, b, c, d, e⟩
    invFun := fun r => (r.bRequestType, r.bRequest, r.wValue, r.wIndex, r.wLength)
    left_inv := fun _ => rfl
    right_inv := fun _ => rfl }

/-- `struct usb_endpoint_descriptor` -/
structure UsbEndpointDescriptor where
  bLength : UInt8
  bDescriptorType : UInt8
  bEndpointAddress : UInt8
  bmAttributes : UInt8
  wMaxPacketSize : UInt16
  bInterval : UInt8
  bRefresh : UInt8
  bSynchAddress : UInt8
  deriving DecidableEq

/-- An event fetched from the raw-gadget device. -/
inductive Event where
  | connect
  | control (ctrl : UsbCtrlRequest)
  | suspend
  | resume
  | reset
  | disconnect
  | unknown (ty : UInt32)
  deriving DecidableEq

/-! ## System calls -/

/-- Header of the transfer ioctls. -/
structure UsbRawEpIoHeader where
  ep : UInt16
  flags : UInt16
  length : UInt32
  deriving DecidableEq

/-- Handle to an enabled non-control endpoint, returned by `ep_enable`. -/
structure EpHandle where
  value : UInt32
  deriving DecidableEq

/-- The calls of the bridge, and `epDisable`, which it never makes. -/
inductive Ioctl where
  | eventFetch (buf : List UInt8)
  | ep0Write (header : UsbRawEpIoHeader) (data : List UInt8)
  | ep0Read (header : UsbRawEpIoHeader)
  | ep0Stall
  | epEnable (desc : UsbEndpointDescriptor)
  | epDisable (ep : EpHandle)
  | epWrite (header : UsbRawEpIoHeader) (data : List UInt8)
  | epRead (header : UsbRawEpIoHeader)
  | configure
  | vbusDraw (power : UInt32)
  deriving DecidableEq

/-- The return value, `errno` after a failure, and what the kernel wrote into
the data region it was given. -/
structure IoctlReply where
  ret : Int32
  errno : ℕ
  written : List UInt8
  deriving DecidableEq

/-- `io::Error::last_os_error()`, without its text. -/
def lastOsError (errno : ℕ) : IoError := ⟨.os errno, ""⟩

def IoctlReply.Succeeds (reply : IoctlReply) : Prop := ¬ reply.ret < 0

instance (reply : IoctlReply) : Decidable reply.Succeeds := inferInstanceAs (Decidable (¬ _))

/-- A region after the kernel has written to it. -/
def overwrite (region written : List UInt8) : List UInt8 :=
  (written ++ region.drop written.length).take region.length

theorem length_overwrite (region written : List UInt8) :
    (overwrite region written).length = region.length := by
  simp only [overwrite, List.length_take, List.length_append, List.length_drop]
  omega

/-! ## Wrapper functions -/

def ep0BufSize : ℕ := 512

/-- The zeroed `EventFetchBuf`: `event_type`, `length` and the request. -/
def eventFetchBuf : List UInt8 := u32le.put 0 ++ u32le.put 8 ++ List.replicate 8 0

/-- The event that the filled buffer stands for. -/
def Event.ofBuf (buf : List UInt8) : Event :=
  match u32le.get (buf.take 4) with
  | 1 => .connect
  | 2 => .control (UsbCtrlRequest.format.get (buf.drop 8))
  | 3 => .suspend
  | 4 => .resume
  | 5 => .reset
  | 6 => .disconnect
  | ty => .unknown ty

/-- `ep0_write` refuses what does not fit its buffer. -/
def ep0WriteTooLarge (n : ℕ) : IoError :=
  ⟨.invalidInput, s!"ep0_write: data too large ({n} > {ep0BufSize})"⟩

/-- The data region of `ep0_write`'s buffer. -/
def ep0WriteBuf (data : List UInt8) : List UInt8 :=
  data ++ List.replicate (ep0BufSize - data.length) 0

def ep0Header (len : ℕ) : UsbRawEpIoHeader := ⟨0, 0, UInt32.ofNat len⟩

/-- `header.ep = ep.0 as u16` -/
def epHeader (ep : EpHandle) (len : ℕ) : UsbRawEpIoHeader :=
  ⟨ep.value.toUInt16, 0, UInt32.ofNat len⟩

/-- `ep0_read` asks for no more than fits its buffer. -/
def ep0ReadLen (len : ℕ) : ℕ := min len ep0BufSize

/-- What a read returns and leaves in the caller's slice: at most `len` bytes
are taken from a data region of `size` bytes that was zero before the call. -/
def copyRead (buf : List UInt8) (size len : ℕ) (reply : IoctlReply) : ℕ × List UInt8 :=
  let n := min reply.ret.toNatClampNeg len
  (n, (overwrite (List.replicate size 0) reply.written).take n ++ buf.drop n)

theorem copyRead_fst_le (buf : List UInt8) (size len : ℕ) (reply : IoctlReply) :
    (copyRead buf size len reply).1 ≤ len := Nat.min_le_right ..

/-- A read never returns more bytes than it leaves in the slice. -/
theorem length_take_copyRead {size len : ℕ} (h : len ≤ size) (buf : List UInt8)
    (reply : IoctlReply) :
    ((copyRead buf size len reply).2.take (copyRead buf size len reply).1).length =
      (copyRead buf size len reply).1 := by
  have bound := copyRead_fst_le buf size len reply
  simp only [copyRead, List.length_take, List.length_append, length_overwrite,
    List.length_replicate, List.length_drop] at bound ⊢
  omega

theorem length_copyRead {size len : ℕ} (h : len ≤ size) {buf : List UInt8}
    (h' : len ≤ buf.length) (reply : IoctlReply) :
    (copyRead buf size len reply).2.length = buf.length := by
  have bound := copyRead_fst_le buf size len reply
  simp only [copyRead, List.length_take, List.length_append, length_overwrite,
    List.length_replicate, List.length_drop] at bound ⊢
  omega

end UsbipDevirt
