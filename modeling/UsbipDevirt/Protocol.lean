import UsbipDevirt.Lib.Bytes

/-!
# USB/IP protocol values

Constants and the values that cross the client's interface. `IoError` stands
for `std::io::Error`: its kind and, for errors the client builds itself, the
message text.
-/

namespace UsbipDevirt

/-! ## URB commands -/

def usbipCmdSubmit : UInt32 := 1
def usbipRetSubmit : UInt32 := 3
def usbipCmdUnlink : UInt32 := 2
def usbipRetUnlink : UInt32 := 4

/-- ECONNRESET on Linux. -/
def econnreset : Int32 := 104

/-- USB transfer direction. -/
inductive Direction where
  | out
  | in
  deriving DecidableEq, Repr

/-- `direction as u32` -/
def Direction.toUInt32 : Direction → UInt32
  | .out => 0
  | .in => 1

inductive ErrorKind where
  | invalidData
  | invalidInput
  | brokenPipe
  | unexpectedEof
  | other
  | os (errno : Nat)
  deriving DecidableEq, Repr

structure IoError where
  kind : ErrorKind
  message : String
  deriving DecidableEq, Repr

/-- Response to a submitted URB. -/
structure RetSubmit where
  seqnum : UInt32
  status : Int32
  actualLength : UInt32
  data : List UInt8
  direction : Direction
  deriving DecidableEq

/-- Response to an unlink request. -/
structure RetUnlink where
  seqnum : UInt32
  status : Int32
  deriving DecidableEq

/-- A response received from the USB/IP server. -/
inductive UrbResponse where
  | submit (ret : RetSubmit)
  | unlink (ret : RetUnlink)
  deriving DecidableEq

end UsbipDevirt
