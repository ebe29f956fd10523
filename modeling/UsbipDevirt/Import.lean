import UsbipDevirt.DeviceList

/-!
# Importing a device

`import_device` on a connected socket. The string that `list_devices` makes of a
`busid` field ends in front of the first NUL, the field of OP_REQ_IMPORT takes at
most 31 bytes of it: whatever comes out of a field with a terminator goes back in
whole.
-/

namespace UsbipDevirt

open Bytes Decoder

def opReqImport : UInt16 := 0x8003
def opRepImport : UInt16 := 0x0003

structure OpReqImport where
  header : OpHeader
  busid : List.Vector UInt8 busidLen
  deriving DecidableEq

def OpReqImport.format : Format OpReqImport :=
  (OpHeader.format.pair (raw busidLen)).map
  { toFun := fun (a, b) => ⟨a, b⟩
    invFun := fun r => (r.header, r.busid)
    left_inv := fun _ => rfl
    right_inv := fun _ => rfl }

@[simp] theorem OpReqImport.format_width : OpReqImport.format.width = 40 := rfl

/-- `req.busid`, zeroed and with `copy_len` bytes of the string in front. -/
def busidField (busid : String) : List.Vector UInt8 busidLen :=
  let copyLen := min (utf8 busid).length (busidLen - 1)
  ⟨(utf8 busid).take copyLen ++ (List.replicate busidLen 0).drop copyLen, by
    have width : busidLen = 32 := rfl
    simp only [List.length_append, List.length_take, List.length_drop, List.length_replicate]
    omega⟩

def importRequest (busid : String) : OpReqImport :=
  ⟨⟨usbipVersion, opReqImport, 0⟩, busidField busid⟩

def importFailed (status : UInt32) : IoError :=
  ⟨.other, s!"import failed with status: {status}"⟩

/-- `import_device` from the reply header to the device info. -/
def readImport (replace : List UInt8 → String) (failure : IoError) :
    Decoder IoError DeviceInfo :=
  (readWire failure OpHeader.format).bind fun rep =>
    if rep.code ≠ opRepImport then fail (unexpectedReply rep.code)
    else if rep.status ≠ 0 then fail (importFailed rep.status)
    else (readWire failure WireDeviceInfo.format).bind fun wireDev =>
      pure (wireDev.toInfo replace)

def importDevice (replace : List UInt8 → String) (busid : String) (w : Output) (r : Input) :
    Except IoError (DeviceInfo × UsbipConnection) × Output :=
  match w.writeAll (OpReqImport.format.put (importRequest busid)) with
  | (.error e, w) => (.error e, w)
  | (.ok _, w) =>
    match w.flush with
    | (.error e, w) => (.error e, w)
    | (.ok _, w) =>
      match readImport replace r.failure r.bytes with
      | .error e => (.error e, w)
      | .ok (dev, rest) =>
        (.ok (dev, .imported ⟨rest, r.failure⟩ w dev.busnum dev.devnum), w)

/-! ## What is sent -/

/-- A write puts a front of the bytes on the wire, and all of them if it succeeds. -/
theorem Output.sent_writeAll (w : Output) (bytes : List UInt8) :
    ∃ front, front <+: bytes ∧ (w.writeAll bytes).2.sent = w.sent ++ front := by
  obtain ⟨sent, fates⟩ := w
  match fates with
  | [] | .ok :: _ => exact ⟨bytes, List.prefix_refl _, rfl⟩
  | .error n _ :: _ => exact ⟨bytes.take n, List.take_prefix n bytes, rfl⟩

theorem Output.sent_flush (w : Output) : w.flush.2.sent = w.sent := by
  obtain ⟨front, isPrefix, sent⟩ := w.sent_writeAll []
  obtain rfl := List.prefix_nil.mp isPrefix
  rwa [List.append_nil] at sent

/-- Nothing is written behind the request. -/
theorem sent_importDevice (replace : List UInt8 → String) (busid : String) (w : Output)
    (r : Input) : (importDevice replace busid w r).2.sent =
      (w.writeAll (OpReqImport.format.put (importRequest busid))).2.sent := by
  unfold importDevice
  cases written : w.writeAll (OpReqImport.format.put (importRequest busid)) with
  | mk result w₁ =>
    cases result with
    | error e => rfl
    | ok _ =>
      have flushed := w₁.sent_flush
      cases hf : w₁.flush with
      | mk result w₂ =>
        rw [hf] at flushed
        cases result with
        | error e => simpa only [hf] using flushed
        | ok _ =>
          cases h : readImport replace r.failure r.bytes <;> simpa only [hf, h] using flushed

/-- An import of the name sends a request with this field: a socket that takes every
write has all of it, any other socket a part from the front. -/
def ImportSends (replace : List UInt8 → String) (busid : String) (field : List UInt8) : Prop :=
  ∃ request : OpReqImport, request.header = ⟨usbipVersion, opReqImport, 0⟩ ∧
    request.busid.toList = field ∧ ∀ (w : Output) (r : Input),
      (w.Accepts → (importDevice replace busid w r).2.sent =
        w.sent ++ OpReqImport.format.put request) ∧
      ∃ front, front <+: OpReqImport.format.put request ∧
        (importDevice replace busid w r).2.sent = w.sent ++ front

theorem importSends (replace : List UInt8 → String) (busid : String) :
    ImportSends replace busid (busidField busid).toList := by
  refine ⟨importRequest busid, rfl, rfl, ?_⟩
  intro w r
  rw [sent_importDevice]
  constructor
  · intro accepts
    obtain ⟨w', written, _⟩ := accepts.writeAll (OpReqImport.format.put (importRequest busid))
    rw [written]
    exact Output.writeAll_ok written
  · exact w.sent_writeAll _

/-! ## The field -/

theorem toList_busidField (busid : String) :
    (busidField busid).toList =
      (utf8 busid).take 31 ++ List.replicate (32 - ((utf8 busid).take 31).length) 0 := by
  show (utf8 busid).take (min (utf8 busid).length 31) ++
    (List.replicate 32 0).drop (min (utf8 busid).length 31) = _
  rw [List.drop_replicate, List.length_take, Nat.min_comm 31]
  congr 1
  by_cases short : (utf8 busid).length ≤ 31
  · rw [Nat.min_eq_left short, List.take_of_length_le short, List.take_of_length_le (Nat.le_refl _)]
  · rw [Nat.min_eq_right (by omega)]

theorem utf8_fromUtf8Lossy (replace : List UInt8 → String) {bytes : List UInt8}
    (valid : (ByteArray.mk bytes.toArray).IsValidUTF8) :
    utf8 (fromUtf8Lossy replace bytes) = bytes := by
  simp [fromUtf8Lossy, utf8, String.fromUTF8?, String.fromUTF8, valid]

/-- The bytes in front of the first NUL. -/
def beforeNul (bytes : List UInt8) : List UInt8 := bytes.takeWhile (· ≠ 0)

theorem take_findIdx_nul (bytes : List UInt8) :
    bytes.take (bytes.findIdx (· == 0)) = beforeNul bytes := by
  induction bytes with
  | nil => rfl
  | cons b bytes ih =>
    by_cases nul : b = 0
    · simp [beforeNul, List.findIdx_cons, nul]
    · have other : (b == 0) = false := by simpa using nul
      have more : beforeNul (b :: bytes) = b :: beforeNul bytes := by simp [beforeNul, nul]
      rw [List.findIdx_cons, other, cond_false, List.take_succ_cons, ih, more]

theorem length_beforeNul_lt {bytes : List UInt8} (nul : 0 ∈ bytes) :
    (beforeNul bytes).length < bytes.length := by
  rw [← take_findIdx_nul, List.length_take]
  have found : bytes.findIdx (· == 0) < bytes.length :=
    List.findIdx_lt_length_of_exists ⟨0, nul, rfl⟩
  omega

/-- The name that comes out of a terminated field goes back into it. -/
theorem busidField_bytesToString (replace : List UInt8 → String)
    {field : List.Vector UInt8 busidLen} (nul : 0 ∈ field.toList)
    (valid : (ByteArray.mk (beforeNul field.toList).toArray).IsValidUTF8) :
    (busidField (bytesToString replace field.toList)).toList =
      beforeNul field.toList ++ List.replicate (32 - (beforeNul field.toList).length) 0 := by
  have name : utf8 (bytesToString replace field.toList) = beforeNul field.toList := by
    rw [bytesToString, take_findIdx_nul, utf8_fromUtf8Lossy replace valid]
  have short : (beforeNul field.toList).length < 32 := by
    have shorter := length_beforeNul_lt nul
    rwa [List.Vector.toList_length] at shorter
  have whole : (beforeNul field.toList).take 31 = beforeNul field.toList :=
    List.take_of_length_le (by omega)
  rw [toList_busidField, name, whole]

/-- Whatever stands behind the first NUL of its field, a listed device is imported by
its own name; any other name is cut to 31 bytes and terminated. -/
theorem listed_device_imported (replace : List UInt8 → String) :
    (∀ wire : WireDeviceInfo, 0 ∈ wire.busid.toList →
      (ByteArray.mk (beforeNul wire.busid.toList).toArray).IsValidUTF8 →
      ImportSends replace (wire.toInfo replace).busid
        (beforeNul wire.busid.toList ++
          List.replicate (32 - (beforeNul wire.busid.toList).length) 0)) ∧
    (∀ (version : UInt16) (records : List DeviceRecord) (rest : List UInt8) (failure : IoError)
      (w : Output), records.length < 2 ^ 32 → w.Accepts →
      ∃ devices, (listDevices replace w ⟨recordsReply version records ++ rest, failure⟩).1 =
          .ok devices ∧
        devices.map DeviceInfo.busid =
          records.map fun record => (record.wire.toInfo replace).busid) ∧
    ∀ busid : String, ∃ field : List UInt8, ImportSends replace busid field ∧
      field.length = 32 ∧ field.getLast? = some 0 ∧
      field = (utf8 busid).take 31 ++ List.replicate (32 - ((utf8 busid).take 31).length) 0 := by
  refine ⟨?_, ?_, ?_⟩
  · intro wire nul valid
    rw [← busidField_bytesToString replace nul valid]
    exact importSends replace _
  · intro version records rest failure w few accepts
    refine ⟨records.map (DeviceRecord.toInfo replace), ?_, ?_⟩
    · rw [listDevices_result replace accepts, (decodes_records replace failure version few).whole]
      rfl
    · rw [List.map_map]
      rfl
  · intro busid
    refine ⟨_, importSends replace busid, List.Vector.toList_length _, ?_, toList_busidField busid⟩
    have room : 32 - ((utf8 busid).take 31).length =
        31 - ((utf8 busid).take 31).length + 1 := by
      rw [List.length_take]
      omega
    rw [toList_busidField, room, List.replicate_succ', ← List.append_assoc,
      List.getLast?_concat]

/-- The record of a device named "1-1", with other bytes behind the terminator. -/
def garbledKeyboard : WireDeviceInfo :=
  { fullWidthKeyboard.info.toWire with
    busid := ⟨[0x31, 0x2d, 0x31, 0] ++ List.replicate 28 0xff, rfl⟩ }

theorem listed_device_imported_garbled :
    ImportSends toString (garbledKeyboard.toInfo toString).busid
      ([0x31, 0x2d, 0x31] ++ List.replicate 29 0) := by
  obtain ⟨listed, -⟩ := listed_device_imported toString
  exact listed garbledKeyboard (by decide) "1-1".isValidUTF8

end UsbipDevirt
