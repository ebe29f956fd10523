import UsbipDevirt.Import

/-!
# What the handshake accepts

`list_devices` and `import_device` against any server. What either of them takes
for a reply is a reply, with nothing in it left unread, and there is one way to
read it; what it refuses is refused for what the header says, at the header; and
it reports the failure of the socket just when the socket fails inside a reply.
The version in the header and the padding of the interfaces are not looked at.
-/

namespace UsbipDevirt

open Bytes Decoder Language

/-! ## Replies -/

section Replies

variable {α β : Type}

/-- What can come in answer to a request, and what it comes to: a header that is
refused, or an expected one and what it announces. -/
inductive OpReply (f : Format α) (header : α → OpHeader) (code : UInt16)
    (refused : UInt32 → IoError) (G : α → Language IoError β) : Language IoError β
  | unexpected (rep : α) (other : (header rep).code ≠ code) :
      OpReply f header code refused G (.error (unexpectedReply (header rep).code)) (f.put rep)
  | failed (rep : α) (expected : (header rep).code = code) (status : (header rep).status ≠ 0) :
      OpReply f header code refused G (.error (refused (header rep).status)) (f.put rep)
  | answered (rep : α) (expected : (header rep).code = code) (status : (header rep).status = 0)
      {r : Except IoError β} {bytes : List UInt8} (body : G rep r bytes) :
      OpReply f header code refused G r (f.put rep ++ bytes)

theorem recognizes_wire (failure : IoError) (f : Format α) :
    Recognizes failure (readWire failure f) (values id f.put) := by
  rw [readWire_eq]
  exact .field f

/-- The two checks that both requests make of the reply header. -/
theorem recognizes_reply (failure : IoError) (f : Format α) (header : α → OpHeader)
    (code : UInt16) (refused : UInt32 → IoError) {body : α → Decoder IoError β}
    {G : α → Language IoError β} (h : ∀ rep, Recognizes failure (body rep) (G rep)) :
    Recognizes failure ((readWire failure f).bind fun rep =>
      if (header rep).code ≠ code then fail (unexpectedReply (header rep).code)
      else if (header rep).status ≠ 0 then fail (refused (header rep).status)
      else body rep) (OpReply f header code refused G) := by
  have checks (rep : α) : Recognizes failure
      (if (header rep).code ≠ code then fail (unexpectedReply (header rep).code)
        else if (header rep).status ≠ 0 then fail (refused (header rep).status)
        else body rep)
      (if (header rep).code ≠ code then refusal (unexpectedReply (header rep).code)
        else if (header rep).status ≠ 0 then refusal (refused (header rep).status)
        else G rep) := by
    split
    · exact .fail _
    · split
      · exact .fail _
      · exact h rep
  refine ((recognizes_wire failure f).bind checks).congr ?_
  intro r bytes
  constructor
  · intro sentence
    cases sentence with
    | refused head =>
      obtain ⟨_, same, _⟩ := head
      cases same
    | next head tail =>
      obtain ⟨rep, ⟨⟩, rfl⟩ := head
      rw [id_eq] at tail
      split at tail
      · next other =>
        obtain ⟨rfl, rfl⟩ := tail
        rw [List.append_nil]
        exact .unexpected rep other
      · next expected =>
        split at tail
        · next status =>
          obtain ⟨rfl, rfl⟩ := tail
          rw [List.append_nil]
          exact .failed rep (not_not.mp expected) status
        · next zero => exact .answered rep (not_not.mp expected) (not_not.mp zero) tail
  · intro sentence
    cases sentence with
    | unexpected rep other =>
      rw [← List.append_nil (f.put rep)]
      refine .next ⟨rep, rfl, rfl⟩ ?_
      rw [id_eq, if_pos other]
      exact ⟨rfl, rfl⟩
    | failed rep expected status =>
      rw [← List.append_nil (f.put rep)]
      refine .next ⟨rep, rfl, rfl⟩ ?_
      rw [id_eq, if_neg (not_not.mpr expected), if_pos status]
      exact ⟨rfl, rfl⟩
    | answered rep expected status body =>
      refine .next ⟨rep, rfl, rfl⟩ ?_
      rw [id_eq, if_neg (not_not.mpr expected), if_neg (not_not.mpr status)]
      exact body

end Replies

/-! ## The list -/

/-- A device record is as long as its own `num_interfaces` says. -/
theorem recognizes_record (replace : List UInt8 → String) (failure : IoError) :
    Recognizes failure (readDevice replace failure)
      (values (DeviceRecord.toInfo replace) DeviceRecord.encode) := by
  have interface : Recognizes failure (readInterface failure)
      (values WireInterfaceInfo.toInfo WireInterfaceInfo.format.put) :=
    ((recognizes_wire failure _).map WireInterfaceInfo.toInfo).congr fun _ _ => map_values
  refine ((recognizes_wire failure WireDeviceInfo.format).bind fun wire =>
    (interface.times wire.numInterfaces.toNat).map fun interfaces =>
      { wire.toInfo replace with interfaces }).congr ?_
  intro r bytes
  constructor
  · intro sentence
    cases sentence with
    | refused head =>
      obtain ⟨_, same, _⟩ := head
      cases same
    | next head tail =>
      obtain ⟨wire, ⟨⟩, rfl⟩ := head
      obtain ⟨_, ⟨interfaces, count, rfl, rfl⟩, rfl⟩ := tail
      exact ⟨⟨wire, interfaces, count.symm⟩, rfl, rfl⟩
  · rintro ⟨d, rfl, rfl⟩
    exact .next ⟨d.wire, rfl, rfl⟩ ⟨_, ⟨d.interfaces, d.count.symm, rfl, rfl⟩, rfl⟩

/-- The answers to OP_REQ_DEVLIST. -/
def DevlistReply (replace : List UInt8 → String) : Language IoError (List DeviceInfo) :=
  OpReply OpRepDevlistHeader.format OpRepDevlistHeader.header opRepDevlist errorStatus
    fun rep => repeated rep.numDevices.toNat (DeviceRecord.toInfo replace) DeviceRecord.encode

theorem recognizes_devlist (replace : List UInt8 → String) (failure : IoError) :
    Recognizes failure (readDevlist replace failure) (DevlistReply replace) :=
  recognizes_reply failure _ _ _ _ fun _ => (recognizes_record replace failure).times _

theorem devlistReply_ok_iff {replace : List UInt8 → String} {devices : List DeviceInfo}
    {bytes : List UInt8} : DevlistReply replace (.ok devices) bytes ↔
      ∃ version records, records.length < 2 ^ 32 ∧ bytes = recordsReply version records ∧
        devices = records.map (DeviceRecord.toInfo replace) := by
  constructor
  · intro sentence
    cases sentence with
    | answered rep expected status body =>
      obtain ⟨⟨version, code, zero⟩, numDevices⟩ := rep
      obtain rfl : code = opRepDevlist := expected
      obtain rfl : zero = 0 := status
      obtain ⟨records, count, ⟨⟩, rfl⟩ := body
      have same : numDevices = UInt32.ofNat records.length := by rw [count, UInt32.ofNat_toNat]
      rw [same]
      exact ⟨version, records, count ▸ numDevices.toNat_lt, rfl, rfl⟩
  · rintro ⟨version, records, few, rfl, rfl⟩
    have count : (UInt32.ofNat records.length).toNat = records.length :=
      UInt32.toNat_ofNat_of_lt' few
    let rep : OpRepDevlistHeader := ⟨⟨version, opRepDevlist, 0⟩, UInt32.ofNat records.length⟩
    exact .answered rep rfl rfl ⟨records, count.symm, rfl, rfl⟩

/-- A list that was returned is that of the reply, whatever happened to the request. -/
theorem listed_of_ok {replace : List UInt8 → String} {w : Output} {r : Input}
    {devices : List DeviceInfo} (h : (listDevices replace w r).1 = .ok devices) :
    ∃ version records rest, records.length < 2 ^ 32 ∧
      r.bytes = recordsReply version records ++ rest ∧
      devices = records.map (DeviceRecord.toInfo replace) := by
  have read : ∃ rest, readDevlist replace r.failure r.bytes = .ok (devices, rest) := by
    unfold listDevices at h
    split at h
    · cases h
    · split at h
      · cases h
      · split at h
        · cases h
        · next decoded rest same =>
          cases h
          exact ⟨rest, same⟩
  obtain ⟨rest, read⟩ := read
  obtain ⟨_, sentence, same⟩ := (recognizes_devlist replace r.failure).ok_iff.mp read
  obtain ⟨version, records, few, rfl, values⟩ := devlistReply_ok_iff.mp sentence
  exact ⟨version, records, rest, few, same, values⟩

theorem listDevices_ok_iff {replace : List UInt8 → String} {w : Output} (accepts : w.Accepts)
    {r : Input} {devices : List DeviceInfo} : (listDevices replace w r).1 = .ok devices ↔
      ∃ version records rest, records.length < 2 ^ 32 ∧
        r.bytes = recordsReply version records ++ rest ∧
        devices = records.map (DeviceRecord.toInfo replace) := by
  refine ⟨listed_of_ok, ?_⟩
  rintro ⟨version, records, rest, few, same, values⟩
  rw [listDevices_result replace accepts, map_eq_ok]
  have sentence := devlistReply_ok_iff.mpr ⟨version, records, few, rfl, values⟩
  exact ⟨_, (recognizes_devlist replace r.failure).ok_iff.mpr ⟨_, sentence, same⟩, rfl⟩

/-- A list is returned just for the reply that lists it, whatever follows; an error
is what the header deserves, or the failure of a socket that gives no more than
a part of a reply; and no part of a list, nor a longer reply, can be taken for it. -/
theorem devlist_exact (replace : List UInt8 → String) {w : Output} (accepts : w.Accepts)
    (r : Input) :
    (∀ devices, (listDevices replace w r).1 = .ok devices ↔
      ∃ version records rest, records.length < 2 ^ 32 ∧
        r.bytes = recordsReply version records ++ rest ∧
        devices = records.map (DeviceRecord.toInfo replace)) ∧
    (∀ e, (listDevices replace w r).1 = .error e ↔
      (∃ bytes, DevlistReply replace (.error e) bytes ∧ bytes <+: r.bytes) ∨
        e = r.failure ∧ ∃ result bytes, DevlistReply replace result bytes ∧
          r.bytes <+: bytes ∧ r.bytes ≠ bytes) ∧
    ∀ version records result bytes, records.length < 2 ^ 32 →
      DevlistReply replace result bytes →
      recordsReply version records <+: bytes ∨ bytes <+: recordsReply version records →
      result = .ok (records.map (DeviceRecord.toInfo replace)) ∧
        bytes = recordsReply version records := by
  have recognizes := recognizes_devlist replace r.failure
  refine ⟨fun _ => listDevices_ok_iff accepts, ?_, ?_⟩
  · intro e
    rw [listDevices_result replace accepts, map_eq_error, recognizes.error_iff]
  · intro version records result bytes few other comparable
    refine recognizes.unambiguous ?_ other comparable
    exact devlistReply_ok_iff.mpr ⟨version, records, few, rfl, rfl⟩

/-- OP_REP_IMPORT instead of OP_REP_DEVLIST. -/
def strayReply : OpRepDevlistHeader := ⟨⟨usbipVersion, opRepImport, 0⟩, 0⟩

theorem devlist_exact_stray : (listDevices toString ⟨[], []⟩
    ⟨OpRepDevlistHeader.format.put strayReply, ⟨.unexpectedEof, ""⟩⟩).1 =
      .error (unexpectedReply opRepImport) := by
  obtain ⟨_, refused, _⟩ := devlist_exact toString (w := ⟨[], []⟩) (by simp [Output.Accepts])
    ⟨OpRepDevlistHeader.format.put strayReply, ⟨.unexpectedEof, ""⟩⟩
  have sentence : DevlistReply toString (.error (unexpectedReply opRepImport))
      (OpRepDevlistHeader.format.put strayReply) := .unexpected strayReply (by decide)
  exact (refused _).mpr (.inl ⟨_, sentence, List.prefix_refl _⟩)

/-! ## The import -/

/-- The answers to OP_REQ_IMPORT. -/
def ImportReply (replace : List UInt8 → String) : Language IoError DeviceInfo :=
  OpReply OpHeader.format id opRepImport importFailed
    fun _ => values (WireDeviceInfo.toInfo replace) WireDeviceInfo.format.put

theorem recognizes_import (replace : List UInt8 → String) (failure : IoError) :
    Recognizes failure (readImport replace failure) (ImportReply replace) :=
  recognizes_reply failure OpHeader.format id opRepImport importFailed fun _ =>
    ((recognizes_wire failure _).map (WireDeviceInfo.toInfo replace)).congr fun _ _ => map_values

/-- The server's answer, if it lets the device be imported. -/
def importReply (version : UInt16) (wire : WireDeviceInfo) : List UInt8 :=
  OpHeader.format.put ⟨version, opRepImport, 0⟩ ++ WireDeviceInfo.format.put wire

theorem importReply_ok_iff {replace : List UInt8 → String} {dev : DeviceInfo}
    {bytes : List UInt8} : ImportReply replace (.ok dev) bytes ↔
      ∃ version wire, bytes = importReply version wire ∧ dev = wire.toInfo replace := by
  constructor
  · intro sentence
    cases sentence with
    | answered rep expected status body =>
      obtain ⟨version, code, zero⟩ := rep
      obtain rfl : code = opRepImport := expected
      obtain rfl : zero = 0 := status
      obtain ⟨wire, ⟨⟩, rfl⟩ := body
      exact ⟨version, wire, rfl, rfl⟩
  · rintro ⟨version, wire, rfl, rfl⟩
    let rep : OpHeader := ⟨version, opRepImport, 0⟩
    exact .answered rep rfl rfl ⟨wire, rfl, rfl⟩

/-- Once the request is sent, the connection stands behind the reply. -/
theorem importDevice_result (replace : List UInt8 → String) (busid : String) {w : Output}
    (accepts : w.Accepts) (r : Input) :
    (importDevice replace busid w r).1 = (readImport replace r.failure r.bytes).map fun read =>
      (read.1, .imported ⟨read.2, r.failure⟩ (importDevice replace busid w r).2
        read.1.busnum read.1.devnum) := by
  obtain ⟨w₁, written, accepts₁⟩ := accepts.writeAll (OpReqImport.format.put (importRequest busid))
  obtain ⟨w₂, flushed, _⟩ := accepts₁.writeAll []
  simp only [importDevice, written, Output.flush, flushed]
  cases readImport replace r.failure r.bytes <;> rfl

theorem importDevice_ok_iff {replace : List UInt8 → String} {busid : String} {w : Output}
    (accepts : w.Accepts) {r : Input} {dev : DeviceInfo} {conn : UsbipConnection} :
    (importDevice replace busid w r).1 = .ok (dev, conn) ↔
      ∃ version wire rest, r.bytes = importReply version wire ++ rest ∧
        dev = wire.toInfo replace ∧ conn = .imported ⟨rest, r.failure⟩
          (importDevice replace busid w r).2 wire.busnum wire.devnum := by
  rw [importDevice_result replace busid accepts, map_eq_ok]
  have recognizes := recognizes_import replace r.failure
  constructor
  · rintro ⟨⟨_, rest⟩, read, ⟨⟩⟩
    obtain ⟨_, sentence, same⟩ := recognizes.ok_iff.mp read
    obtain ⟨version, wire, rfl, rfl⟩ := importReply_ok_iff.mp sentence
    exact ⟨version, wire, rest, same, rfl, rfl⟩
  · rintro ⟨version, wire, rest, same, rfl, rfl⟩
    have sentence : ImportReply replace _ _ := importReply_ok_iff.mpr ⟨version, wire, rfl, rfl⟩
    exact ⟨_, recognizes.ok_iff.mpr ⟨_, sentence, same⟩, rfl⟩

/-- The connection is made just for the reply that grants it, and stands right behind
that reply; everything else is an error as for the list. -/
theorem import_exact (replace : List UInt8 → String) (busid : String) {w : Output}
    (accepts : w.Accepts) (r : Input) :
    (∀ dev conn, (importDevice replace busid w r).1 = .ok (dev, conn) ↔
      ∃ version wire rest, r.bytes = importReply version wire ++ rest ∧
        dev = wire.toInfo replace ∧ conn = .imported ⟨rest, r.failure⟩
          (importDevice replace busid w r).2 wire.busnum wire.devnum) ∧
    (∀ e, (importDevice replace busid w r).1 = .error e ↔
      (∃ bytes, ImportReply replace (.error e) bytes ∧ bytes <+: r.bytes) ∨
        e = r.failure ∧ ∃ result bytes, ImportReply replace result bytes ∧
          r.bytes <+: bytes ∧ r.bytes ≠ bytes) ∧
    ∀ version wire result bytes, ImportReply replace result bytes →
      importReply version wire <+: bytes ∨ bytes <+: importReply version wire →
      result = .ok (wire.toInfo replace) ∧ bytes = importReply version wire := by
  have recognizes := recognizes_import replace r.failure
  refine ⟨fun _ _ => importDevice_ok_iff accepts, ?_, ?_⟩
  · intro e
    rw [importDevice_result replace busid accepts, map_eq_error, recognizes.error_iff]
  · intro version wire result bytes other comparable
    exact recognizes.unambiguous (importReply_ok_iff.mpr ⟨version, wire, rfl, rfl⟩) other comparable

/-- The request of a connection that was returned has been sent, and it was granted. -/
theorem imported_of_ok {replace : List UInt8 → String} {busid : String} {w : Output} {r : Input}
    {dev : DeviceInfo} {conn : UsbipConnection}
    (h : (importDevice replace busid w r).1 = .ok (dev, conn)) :
    ∃ version wire rest output, r.bytes = importReply version wire ++ rest ∧
      dev = wire.toInfo replace ∧
      output.sent = w.sent ++ OpReqImport.format.put (importRequest busid) ∧
      conn = .imported ⟨rest, r.failure⟩ output wire.busnum wire.devnum := by
  unfold importDevice at h
  split at h
  · cases h
  · next w₁ written =>
    split at h
    · cases h
    · next w₂ flushed =>
      split at h
      · cases h
      · next dev rest read =>
        cases h
        obtain ⟨_, sentence, same⟩ := (recognizes_import replace r.failure).ok_iff.mp read
        obtain ⟨version, wire, rfl, rfl⟩ := importReply_ok_iff.mp sentence
        have sent := w₁.sent_flush
        rw [flushed, Output.writeAll_ok written] at sent
        exact ⟨version, wire, rest, w₂, same, rfl, sent, rfl⟩

/-- The device is already in use. -/
def busyReply : OpHeader := ⟨usbipVersion, opRepImport, 1⟩

theorem import_exact_busy : (importDevice toString "1-1" ⟨[], []⟩
    ⟨OpHeader.format.put busyReply, ⟨.unexpectedEof, ""⟩⟩).1 = .error (importFailed 1) := by
  obtain ⟨_, refused, _⟩ := import_exact toString "1-1" (w := ⟨[], []⟩)
    (by simp [Output.Accepts]) ⟨OpHeader.format.put busyReply, ⟨.unexpectedEof, ""⟩⟩
  have sentence : ImportReply toString (.error (importFailed 1))
      (OpHeader.format.put busyReply) := .failed busyReply rfl (by decide)
  exact (refused _).mpr (.inl ⟨_, sentence, List.prefix_refl _⟩)

end UsbipDevirt
