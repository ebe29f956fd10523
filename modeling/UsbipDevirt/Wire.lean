import UsbipDevirt.Protocol

/-!
# Wire headers

Each header lists its fields in wire order. The `format` of a header is both
its `as_bytes` and its `ref_from_bytes`: the records are packed and every bit
pattern is a value, so the two are inverse on 48-byte strings.
-/

namespace UsbipDevirt

open Bytes

structure CmdSubmitHeader where
  command : UInt32
  seqnum : UInt32
  devid : UInt32
  direction : UInt32
  ep : UInt32
  transferFlags : UInt32
  transferBufferLength : UInt32
  startFrame : UInt32
  numberOfPackets : UInt32
  interval : UInt32
  setup : List.Vector UInt8 8
  deriving DecidableEq

def CmdSubmitHeader.format : Format CmdSubmitHeader :=
  (u32be.pair <| u32be.pair <| u32be.pair <| u32be.pair <| u32be.pair <| u32be.pair <|
    u32be.pair <| u32be.pair <| u32be.pair <| u32be.pair (raw 8)).map
  { toFun := fun (a, b, c, d, e, f, g, h, i, j, k) => ⟨a, b, c, d, e, f, g, h, i, j, k⟩
    invFun := fun h => (h.command, h.seqnum, h.devid, h.direction, h.ep, h.transferFlags,
      h.transferBufferLength, h.startFrame, h.numberOfPackets, h.interval, h.setup)
    left_inv := fun _ => rfl
    right_inv := fun _ => rfl }

structure CmdUnlinkHeader where
  command : UInt32
  seqnum : UInt32
  devid : UInt32
  direction : UInt32
  ep : UInt32
  unlinkSeqnum : UInt32
  padding : List.Vector UInt8 24
  deriving DecidableEq

def CmdUnlinkHeader.format : Format CmdUnlinkHeader :=
  (u32be.pair <| u32be.pair <| u32be.pair <| u32be.pair <| u32be.pair <|
    u32be.pair (raw 24)).map
  { toFun := fun (a, b, c, d, e, f, g) => ⟨a, b, c, d, e, f, g⟩
    invFun := fun h => (h.command, h.seqnum, h.devid, h.direction, h.ep, h.unlinkSeqnum,
      h.padding)
    left_inv := fun _ => rfl
    right_inv := fun _ => rfl }

structure RetSubmitHeader where
  command : UInt32
  seqnum : UInt32
  devid : UInt32
  direction : UInt32
  ep : UInt32
  status : Int32
  actualLength : UInt32
  startFrame : UInt32
  numberOfPackets : UInt32
  errorCount : UInt32
  padding : List.Vector UInt8 8
  deriving DecidableEq

def RetSubmitHeader.format : Format RetSubmitHeader :=
  (u32be.pair <| u32be.pair <| u32be.pair <| u32be.pair <| u32be.pair <| i32be.pair <|
    u32be.pair <| u32be.pair <| u32be.pair <| u32be.pair (raw 8)).map
  { toFun := fun (a, b, c, d, e, f, g, h, i, j, k) => ⟨a, b, c, d, e, f, g, h, i, j, k⟩
    invFun := fun h => (h.command, h.seqnum, h.devid, h.direction, h.ep, h.status,
      h.actualLength, h.startFrame, h.numberOfPackets, h.errorCount, h.padding)
    left_inv := fun _ => rfl
    right_inv := fun _ => rfl }

structure RetUnlinkHeader where
  command : UInt32
  seqnum : UInt32
  devid : UInt32
  direction : UInt32
  ep : UInt32
  status : Int32
  padding : List.Vector UInt8 24
  deriving DecidableEq

def RetUnlinkHeader.format : Format RetUnlinkHeader :=
  (u32be.pair <| u32be.pair <| u32be.pair <| u32be.pair <| u32be.pair <|
    i32be.pair (raw 24)).map
  { toFun := fun (a, b, c, d, e, f, g) => ⟨a, b, c, d, e, f, g⟩
    invFun := fun h => (h.command, h.seqnum, h.devid, h.direction, h.ep, h.status, h.padding)
    left_inv := fun _ => rfl
    right_inv := fun _ => rfl }

/-! The sizes the source asserts at compile time. -/

@[simp] theorem CmdSubmitHeader.format_width : CmdSubmitHeader.format.width = 48 := rfl

@[simp] theorem CmdUnlinkHeader.format_width : CmdUnlinkHeader.format.width = 48 := rfl

@[simp] theorem RetSubmitHeader.format_width : RetSubmitHeader.format.width = 48 := rfl

@[simp] theorem RetUnlinkHeader.format_width : RetUnlinkHeader.format.width = 48 := rfl

/-! ## Reading a response header -/

/-- What the first word of a 48-byte response block selects. -/
inductive ResponseHeader where
  | retSubmit (header : RetSubmitHeader)
  | retUnlink (header : RetUnlinkHeader)
  | unknown (command : UInt32)

/-- The `match command` on a block read from the socket. -/
def parseHeader (buf : List UInt8) : ResponseHeader :=
  let command := u32be.get (buf.take 4)
  if command = usbipRetSubmit then .retSubmit (RetSubmitHeader.format.get buf)
  else if command = usbipRetUnlink then .retUnlink (RetUnlinkHeader.format.get buf)
  else .unknown command

theorem RetSubmitHeader.command_get (buf : List UInt8) :
    (RetSubmitHeader.format.get buf).command = u32be.get (buf.take 4) := rfl

theorem RetUnlinkHeader.command_get (buf : List UInt8) :
    (RetUnlinkHeader.format.get buf).command = u32be.get (buf.take 4) := rfl

theorem parseHeader_retSubmit_iff {buf : List UInt8} (hlen : buf.length = 48)
    (header : RetSubmitHeader) :
    parseHeader buf = .retSubmit header ↔
      header.command = usbipRetSubmit ∧ buf = RetSubmitHeader.format.put header := by
  constructor
  · intro h
    simp only [parseHeader] at h
    split at h
    · next hc =>
      obtain rfl := ResponseHeader.retSubmit.inj h
      exact ⟨hc, (RetSubmitHeader.format.put_get buf hlen).symm⟩
    · split at h <;> cases h
  · rintro ⟨hc, rfl⟩
    have hget := RetSubmitHeader.format.get_put header
    have hcmd : u32be.get ((RetSubmitHeader.format.put header).take 4) = usbipRetSubmit := by
      rw [← RetSubmitHeader.command_get, hget, hc]
    simp only [parseHeader, hcmd, if_pos, hget]

theorem parseHeader_retUnlink_iff {buf : List UInt8} (hlen : buf.length = 48)
    (header : RetUnlinkHeader) :
    parseHeader buf = .retUnlink header ↔
      header.command = usbipRetUnlink ∧ buf = RetUnlinkHeader.format.put header := by
  constructor
  · intro h
    simp only [parseHeader] at h
    split at h
    · cases h
    · split at h
      · next hc =>
        obtain rfl := ResponseHeader.retUnlink.inj h
        exact ⟨hc, (RetUnlinkHeader.format.put_get buf hlen).symm⟩
      · cases h
  · rintro ⟨hc, rfl⟩
    have hget := RetUnlinkHeader.format.get_put header
    have hcmd : u32be.get ((RetUnlinkHeader.format.put header).take 4) = usbipRetUnlink := by
      rw [← RetUnlinkHeader.command_get, hget, hc]
    have hne : usbipRetUnlink ≠ usbipRetSubmit := by decide
    simp only [parseHeader, hcmd, if_neg hne, if_pos, hget]

end UsbipDevirt
