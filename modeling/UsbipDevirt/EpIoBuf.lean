import UsbipDevirt.EventLoop
import UsbipDevirt.Lib.Memory

/-!
# The buffers of endpoint transfers

`EpIoBuf` is a vector of words whose bytes are reached through a pointer: a
header, and behind it a data region as long as the header says. Here the
pointer arithmetic is that of the source: an access outside of the allocation,
a slice index out of range and a sum that does not fit a `usize` have no result.
The calls turn out to be the ones the event loop is modelled with.
-/

namespace UsbipDevirt

open Bytes Memory

/-! ## The machine -/

/-- Where the program is compiled for; a `u32` fits a `usize` there. -/
structure Target where
  usizeBits : ℕ
  wide : 32 ≤ usizeBits

namespace Target

/-- `isize::MAX`, the most bytes that an allocation can have. -/
def isizeMax (t : Target) : ℕ := 2 ^ (t.usizeBits - 1) - 1

/-- The sum of two `usize` values. -/
def add (t : Target) (a b : ℕ) : Option ℕ := if a + b < 2 ^ t.usizeBits then some (a + b) else none

/-- `u32 as usize` -/
def ofU32 (t : Target) (v : UInt32) : ℕ := v.toNat % 2 ^ t.usizeBits

/-- `i32 as usize`, with the sign extended. -/
def ofI32 (t : Target) (v : Int32) : ℕ := (v.toInt % 2 ^ t.usizeBits).toNat

/-- `vec![0u32; count]`, as bytes. -/
def zeroedWords (t : Target) (count : ℕ) : Option (List.Vector UInt8 (4 * count)) :=
  if 4 * count ≤ t.isizeMax then some (List.Vector.replicate (4 * count) 0) else none

/-- A buffer for `len` bytes of data can be allocated; with a `usize` of 64 bits it
always can. -/
def Allocates (t : Target) (len : ℕ) : Prop := 64 ≤ t.usizeBits ∨ 8 + len + 3 ≤ t.isizeMax

end Target

/-- `xs[..n]` -/
def sliceTo (xs : List UInt8) (n : ℕ) : Option (List UInt8) :=
  if n ≤ xs.length then some (xs.take n) else none

/-- `buf[..n].copy_from_slice(src)` -/
def copyFromSlice (buf : List UInt8) (n : ℕ) (src : List UInt8) : Option (List UInt8) :=
  if n ≤ buf.length ∧ src.length = n then some (src ++ buf.drop n) else none

def UsbRawEpIoHeader.format : Format UsbRawEpIoHeader :=
  (u16le.pair <| u16le.pair u32le).map
  { toFun := fun (ep, flags, length) => ⟨ep, flags, length⟩
    invFun := fun h => (h.ep, h.flags, h.length)
    left_inv := fun _ => rfl
    right_inv := fun _ => rfl }

/-! ## Non-control endpoints -/

/-- The words of `_buf`, their bytes behind `ptr`, and `header_size`. -/
structure EpIoBuf where
  words : ℕ
  memory : List.Vector UInt8 (4 * words)
  headerSize : ℕ

/-- A part of the bytes behind a pointer. -/
structure RawSlice where
  offset : ℕ
  length : ℕ
  deriving DecidableEq

namespace EpIoBuf

def new (t : Target) (ep : EpHandle) (dataLen : ℕ) : Option EpIoBuf := do
  let headerSize := UsbRawEpIoHeader.format.width
  let total ← t.add headerSize dataLen
  let words := (← t.add total 3) / 4
  let buf ← t.zeroedWords words
  let header : UsbRawEpIoHeader := ⟨ep.value.toUInt16, 0, UInt32.ofNat dataLen⟩
  let memory ← store buf 0 (UsbRawEpIoHeader.format.put header)
  some { words, memory, headerSize }

/-- `*header_ptr()` -/
def header (b : EpIoBuf) : Option UsbRawEpIoHeader := do
  UsbRawEpIoHeader.format.get (← load b.memory 0 UsbRawEpIoHeader.format.width)

/-- The slice that `data` and `data_mut` make of the pointer. -/
def region (t : Target) (b : EpIoBuf) : Option RawSlice := do
  let header ← b.header
  let length := t.ofU32 header.length
  if b.headerSize + length ≤ 4 * b.words then some ⟨b.headerSize, length⟩ else none

def data (t : Target) (b : EpIoBuf) : Option (List UInt8) := do
  let region ← b.region t
  load b.memory region.offset region.length

/-- `data_mut()[..src.len()].copy_from_slice(src)` -/
def copyToData (t : Target) (b : EpIoBuf) (src : List UInt8) : Option EpIoBuf := do
  let region ← b.region t
  if src.length ≤ region.length then
    some { b with memory := ← store b.memory region.offset src }
  else none

/-- The kernel writes to the data region and leaves the header as it is. -/
def written (t : Target) (b : EpIoBuf) (reply : IoctlReply) : Option EpIoBuf := do
  let region ← b.region t
  let before ← load b.memory region.offset region.length
  some { b with memory := ← store b.memory region.offset (overwrite before reply.written) }

/-- The buffer whose `header_ptr` the ioctl gets, and what the caller gets. -/
def epWrite (t : Target) (ep : EpHandle) (data : List UInt8) (reply : IoctlReply) :
    Option (EpIoBuf × Except IoError ℕ) := do
  let ioBuf ← EpIoBuf.new t ep data.length
  let ioBuf ← ioBuf.copyToData t data
  if reply.ret < 0 then some (ioBuf, .error (lastOsError reply.errno))
  else some (ioBuf, .ok (t.ofI32 reply.ret))

/-- The buffer whose `header_ptr_mut` the ioctl gets, and the number of bytes read with
the caller's slice after the call. -/
def epRead (t : Target) (ep : EpHandle) (buf : List UInt8) (reply : IoctlReply) :
    Option (EpIoBuf × Except IoError (ℕ × List UInt8)) := do
  let ioBuf ← EpIoBuf.new t ep buf.length
  let after ← ioBuf.written t reply
  if reply.ret < 0 then some (ioBuf, .error (lastOsError reply.errno))
  else
    let transferred := t.ofI32 reply.ret
    let n := min transferred buf.length
    let copied ← copyFromSlice buf n (← sliceTo (← after.data t) n)
    some (ioBuf, .ok (n, copied))

end EpIoBuf

/-! ## Endpoint 0 -/

structure Ep0IoBuf where
  header : UsbRawEpIoHeader
  data : List.Vector UInt8 ep0BufSize

namespace Ep0IoBuf

def zeroed : Ep0IoBuf := ⟨⟨0, 0, 0⟩, List.Vector.replicate ep0BufSize 0⟩

/-- The kernel writes behind the header. -/
def written (b : Ep0IoBuf) (reply : IoctlReply) : Ep0IoBuf :=
  { b with data := ⟨overwrite b.data.toList reply.written, by
      rw [length_overwrite, List.Vector.toList_length]⟩ }

/-- The header that the ioctl gets, and the number of bytes read with the caller's slice
after the call. -/
def ep0Read (t : Target) (buf : List UInt8) (reply : IoctlReply) :
    Option (UsbRawEpIoHeader × Except IoError (ℕ × List UInt8)) := do
  let len := min buf.length ep0BufSize
  let ioBuf := Ep0IoBuf.zeroed
  let ioBuf := { ioBuf with header.length := UInt32.ofNat len }
  let after := ioBuf.written reply
  if reply.ret < 0 then some (ioBuf.header, .error (lastOsError reply.errno))
  else
    let transferred := t.ofI32 reply.ret
    let n := min transferred len
    let copied ← copyFromSlice buf n (← sliceTo after.data.toList n)
    some (ioBuf.header, .ok (n, copied))

end Ep0IoBuf

/-! ## What the buffer holds -/

theorem Target.Allocates.fits {t : Target} {len : ℕ} (room : t.Allocates len)
    (small : len < 2 ^ 32) : 8 + len + 3 ≤ t.isizeMax ∧ 8 + len + 3 < 2 ^ t.usizeBits := by
  have doubled : 2 ^ t.usizeBits = 2 * 2 ^ (t.usizeBits - 1) := by
    have wide := t.wide
    rw [← Nat.pow_succ']
    congr 1
    omega
  have bounded : 8 + len + 3 ≤ t.isizeMax := by
    rcases room with wide | room
    · have most : 2 ^ 63 ≤ 2 ^ (t.usizeBits - 1) := Nat.pow_le_pow_right (by decide) (by omega)
      simp only [isizeMax]
      omega
    · exact room
  refine ⟨bounded, ?_⟩
  simp only [isizeMax] at bounded
  omega

theorem Target.ofU32_eq (t : Target) (v : UInt32) : t.ofU32 v = v.toNat := by
  have most : 2 ^ 32 ≤ 2 ^ t.usizeBits := Nat.pow_le_pow_right (by decide) t.wide
  have limit := v.toNat_lt
  exact Nat.mod_eq_of_lt (by omega)

theorem Target.ofI32_eq (t : Target) {v : Int32} (nonneg : ¬ v < 0) :
    t.ofI32 v = v.toNatClampNeg := by
  have most : 2 ^ 32 ≤ 2 ^ t.usizeBits := Nat.pow_le_pow_right (by decide) t.wide
  have low : 0 ≤ v.toInt := by
    rw [Int32.lt_iff_toInt_lt] at nonneg
    exact Int.not_lt.mp nonneg
  have high := v.toInt_lt
  have same : v.toInt % (2 ^ t.usizeBits : ℤ) = v.toInt := by
    apply Int.emod_eq_of_lt low
    exact_mod_cast (by omega : v.toInt < ((2 ^ t.usizeBits : ℕ) : ℤ))
  rw [ofI32, same, Int32.toNatClampNeg]

namespace EpIoBuf

/-- The header for `len` bytes, and words for it and the data, but none to spare. -/
structure Holds (b : EpIoBuf) (ep : EpHandle) (len : ℕ) : Prop where
  headerSize : b.headerSize = 8
  low : 8 + len ≤ 4 * b.words
  high : 4 * b.words < 8 + len + 4
  header : b.memory.toList.take 8 = UsbRawEpIoHeader.format.put (epHeader ep len)

theorem new_holds {t : Target} {len : ℕ} (room : t.Allocates len) (small : len < 2 ^ 32)
    (ep : EpHandle) : ∃ b, new t ep len = some b ∧ b.Holds ep len ∧
      (b.memory.toList.drop 8).take len = List.replicate len 0 := by
  obtain ⟨allocated, fits⟩ := room.fits small
  have total : t.add UsbRawEpIoHeader.format.width len = some (8 + len) := if_pos (by
    show 8 + len < _
    omega)
  have rounded : t.add (8 + len) 3 = some (8 + len + 3) := if_pos fits
  have words : t.zeroedWords ((8 + len + 3) / 4) = some (List.Vector.replicate _ 0) := if_pos (by
    omega)
  have length : (UsbRawEpIoHeader.format.put (epHeader ep len)).length = 8 :=
    UsbRawEpIoHeader.format.length_put _
  have inside : 0 + (UsbRawEpIoHeader.format.put (epHeader ep len)).length ≤
      4 * ((8 + len + 3) / 4) := by omega
  obtain ⟨memory, stored, bytes⟩ := store_inside (List.Vector.replicate _ 0) inside
  refine ⟨⟨_, memory, 8⟩, ?_, ?_, ?_⟩
  · simp only [new, total, rounded, words, Option.bind_eq_bind, Option.bind_some]
    exact congrArg (Option.bind · _) stored
  · constructor
    · rfl
    · show 8 + len ≤ 4 * ((8 + len + 3) / 4)
      omega
    · show 4 * ((8 + len + 3) / 4) < 8 + len + 4
      omega
    · rw [bytes, List.take_zero, List.nil_append, List.take_left' length]
  · rw [bytes, List.take_zero, List.nil_append, List.drop_left' length, length]
    simp only [toList_replicate, List.drop_replicate, List.take_replicate]
    congr 1
    omega

namespace Holds

variable {b : EpIoBuf} {ep : EpHandle} {len : ℕ}

theorem header_eq (h : b.Holds ep len) : b.header = some (epHeader ep len) := by
  have inside : 0 + 8 ≤ 4 * b.words := by
    have := h.low
    omega
  have bytes := load_inside b.memory inside
  rw [List.drop_zero, h.header] at bytes
  show (load b.memory 0 8).bind _ = _
  rw [bytes, Option.bind_some, Format.get_put]

theorem region_eq (h : b.Holds ep len) (t : Target) (small : len < 2 ^ 32) :
    b.region t = some ⟨8, len⟩ := by
  have length : t.ofU32 (epHeader ep len).length = len := by
    rw [t.ofU32_eq, epHeader, UInt32.toNat_ofNat']
    omega
  simp only [region, h.header_eq, Option.bind_eq_bind, Option.bind_some, length, h.headerSize]
  exact if_pos h.low

theorem data_eq (h : b.Holds ep len) (t : Target) (small : len < 2 ^ 32) :
    b.data t = some ((b.memory.toList.drop 8).take len) := by
  simp only [data, h.region_eq t small, Option.bind_eq_bind, Option.bind_some]
  exact load_inside b.memory h.low

/-- A store to the data region leaves the header and the size. -/
theorem store_data (h : b.Holds ep len) {src : List UInt8} (length : src.length ≤ len) :
    ∃ memory, store b.memory 8 src = some memory ∧
      Holds ⟨b.words, memory, b.headerSize⟩ ep len ∧
      (memory.toList.drop 8).take src.length = src := by
  have inside : 8 + src.length ≤ 4 * b.words := by
    have := h.low
    omega
  obtain ⟨memory, stored, -⟩ := store_inside b.memory inside
  refine ⟨memory, stored, ⟨h.headerSize, h.low, h.high, ?_⟩, ?_⟩
  · rw [← h.header]
    exact take_store stored (Nat.le_refl 8)
  · have loaded := load_store stored
    rw [load_inside memory inside] at loaded
    exact Option.some.inj loaded

theorem copyToData_eq (h : b.Holds ep len) (t : Target) (small : len < 2 ^ 32)
    {src : List UInt8} (length : src.length = len) :
    ∃ after, b.copyToData t src = some after ∧ after.Holds ep len ∧
      (after.memory.toList.drop 8).take len = src := by
  obtain ⟨memory, stored, holds, bytes⟩ := h.store_data (Nat.le_of_eq length)
  refine ⟨_, ?_, holds, by rwa [length] at bytes⟩
  simp only [copyToData, h.region_eq t small, Option.bind_eq_bind, Option.bind_some, stored]
  exact if_pos (Nat.le_of_eq length)

theorem written_eq (h : b.Holds ep len) (t : Target) (small : len < 2 ^ 32)
    (reply : IoctlReply) : ∃ before after, before.length = len ∧
      b.data t = some before ∧ b.written t reply = some after ∧ after.Holds ep len ∧
      (after.memory.toList.drop 8).take len = overwrite before reply.written := by
  have length : ((b.memory.toList.drop 8).take len).length = len := by
    have low := h.low
    simp only [List.length_take, List.length_drop, List.Vector.toList_length]
    omega
  have kept := length_overwrite ((b.memory.toList.drop 8).take len) reply.written
  rw [length] at kept
  obtain ⟨memory, stored, holds, bytes⟩ := h.store_data (Nat.le_of_eq kept)
  refine ⟨_, _, length, h.data_eq t small, ?_, holds, by rwa [kept] at bytes⟩
  have loaded := load_inside b.memory h.low
  simp only [written, h.region_eq t small, Option.bind_eq_bind, Option.bind_some, loaded, stored]

end Holds

end EpIoBuf

/-! ## The transfers -/

/-- The indices of the two slices are in range. -/
theorem copy_in_range {buf content : List UInt8} {n : ℕ} (fits : n ≤ buf.length)
    (full : n ≤ content.length) : ∃ slice, sliceTo content n = some slice ∧
      copyFromSlice buf n slice = some (content.take n ++ buf.drop n) := by
  have length : (content.take n).length = n := List.length_take_of_le full
  refine ⟨content.take n, if_pos full, ?_⟩
  rw [copyFromSlice, if_pos ⟨fits, length⟩]

/-- What a wrapper makes of the kernel's answer. -/
def IoctlReply.result {α : Type} (reply : IoctlReply) (value : α) : Except IoError α :=
  if reply.ret < 0 then .error (lastOsError reply.errno) else .ok value

theorem EpIoBuf.epRead_eq {t : Target} {buf : List UInt8} (room : t.Allocates buf.length)
    (small : buf.length < 2 ^ 32) (ep : EpHandle) : ∃ b, EpIoBuf.new t ep buf.length = some b ∧
      b.header = some (epHeader ep buf.length) ∧ ∀ reply, EpIoBuf.epRead t ep buf reply =
        some (b, reply.result (copyRead buf buf.length buf.length reply)) := by
  obtain ⟨b, allocated, holds, zeroed⟩ := EpIoBuf.new_holds room small ep
  refine ⟨b, allocated, holds.header_eq, fun reply => ?_⟩
  obtain ⟨before, after, length, region, written, holds', content⟩ :=
    holds.written_eq t small reply
  obtain rfl : before = List.replicate buf.length 0 := by
    rw [holds.data_eq t small, zeroed] at region
    exact (Option.some.inj region).symm
  simp only [EpIoBuf.epRead, allocated, Option.bind_eq_bind, Option.bind_some, written,
    IoctlReply.result]
  by_cases failed : reply.ret < 0
  · rw [if_pos failed, if_pos failed]
  · rw [if_neg failed, if_neg failed, holds'.data_eq t small, content, t.ofI32_eq failed]
    have n : min reply.ret.toNatClampNeg buf.length ≤ buf.length := Nat.min_le_right ..
    have full : min reply.ret.toNatClampNeg buf.length ≤
        (overwrite (List.replicate buf.length 0) reply.written).length := by
      rwa [length_overwrite, length]
    obtain ⟨slice, sliced, copied⟩ := copy_in_range n full
    simp only [Option.bind_some, sliced, copied]
    rfl

theorem Ep0IoBuf.ep0Read_eq (t : Target) (buf : List UInt8) (reply : IoctlReply) :
    Ep0IoBuf.ep0Read t buf reply =
      some (ep0Header (ep0ReadLen buf.length),
        reply.result (copyRead buf ep0BufSize (ep0ReadLen buf.length) reply)) := by
  simp only [Ep0IoBuf.ep0Read, IoctlReply.result]
  by_cases failed : reply.ret < 0
  · rw [if_pos failed, if_pos failed]
    rfl
  · rw [if_neg failed, if_neg failed, t.ofI32_eq failed]
    have n : min reply.ret.toNatClampNeg (min buf.length ep0BufSize) ≤ buf.length := by omega
    have full : min reply.ret.toNatClampNeg (min buf.length ep0BufSize) ≤
        (overwrite (List.replicate ep0BufSize 0) reply.written).length := by
      rw [length_overwrite, List.length_replicate]
      omega
    obtain ⟨slice, sliced, copied⟩ := copy_in_range n full
    simp only [Ep0IoBuf.written, Ep0IoBuf.zeroed, toList_replicate, List.Vector.toList_mk,
      Option.bind_eq_bind, sliced, Option.bind_some, copied]
    rfl

theorem EpIoBuf.epWrite_eq {t : Target} {data : List UInt8} (room : t.Allocates data.length)
    (small : data.length < 2 ^ 32) (ep : EpHandle) (reply : IoctlReply) :
    ∃ b, EpIoBuf.epWrite t ep data reply =
        some (b, reply.result reply.ret.toNatClampNeg) ∧ b.Holds ep data.length ∧
      b.memory.toList.take (8 + data.length) =
        UsbRawEpIoHeader.format.put (epHeader ep data.length) ++ data := by
  obtain ⟨b, allocated, holds, -⟩ := EpIoBuf.new_holds room small ep
  obtain ⟨after, copied, holds', bytes⟩ := holds.copyToData_eq t small rfl
  refine ⟨after, ?_, holds', ?_⟩
  · simp only [EpIoBuf.epWrite, allocated, Option.bind_eq_bind, Option.bind_some, copied,
      IoctlReply.result]
    by_cases failed : reply.ret < 0
    · rw [if_pos failed, if_pos failed]
    · rw [if_neg failed, if_neg failed, t.ofI32_eq failed]
  · rw [List.take_add, holds'.header, bytes]

/-! ## The calls of the event loop -/

theorem epRead_routine {t : Target} {buf : List UInt8} (room : t.Allocates buf.length)
    (small : buf.length < 2 ^ 32) (ep : EpHandle) :
    ∃ (b : EpIoBuf) (header : UsbRawEpIoHeader)
      (result : IoctlReply → Except IoError (ℕ × List UInt8)), b.header = some header ∧
      (∀ reply, EpIoBuf.epRead t ep buf reply = some (b, result reply)) ∧
      RawGadgetDevice.epRead ep buf =
        .op (.ioctl (.epRead header)) fun reply => .done (.ok (result reply)) := by
  obtain ⟨b, _, header, reads⟩ := EpIoBuf.epRead_eq room small ep
  refine ⟨b, _, _, header, reads, ?_⟩
  simp only [RawGadgetDevice.epRead, rawIoctl_bind]
  congr 1
  funext reply
  by_cases failed : reply.ret < 0
  · simp only [IoctlReply.result, if_pos failed]
    rfl
  · simp only [IoctlReply.result, if_neg failed]
    rfl

theorem ep0Read_routine (t : Target) (buf : List UInt8) :
    ∃ (header : UsbRawEpIoHeader) (result : IoctlReply → Except IoError (ℕ × List UInt8)),
      (∀ reply, Ep0IoBuf.ep0Read t buf reply = some (header, result reply)) ∧
      RawGadgetDevice.ep0Read buf =
        .op (.ioctl (.ep0Read header)) fun reply => .done (result reply) := by
  refine ⟨_, _, Ep0IoBuf.ep0Read_eq t buf, ?_⟩
  simp only [RawGadgetDevice.ep0Read, rawIoctl_bind]
  congr 1
  funext reply
  by_cases failed : reply.ret < 0
  · simp only [IoctlReply.result, if_pos failed]
    rfl
  · simp only [IoctlReply.result, if_neg failed]
    rfl

theorem epWrite_routine {t : Target} {data : List UInt8} (room : t.Allocates data.length)
    (small : data.length < 2 ^ 32) (ep : EpHandle) (reply : IoctlReply) :
    ∃ b header region result, EpIoBuf.epWrite t ep data reply = some (b, result) ∧
      b.header = some header ∧ b.data t = some region ∧
      RawGadgetDevice.epWrite ep data = rawIoctl (.epWrite header region) := by
  obtain ⟨b, written, holds, bytes⟩ := EpIoBuf.epWrite_eq room small ep reply
  refine ⟨b, _, data, _, written, holds.header_eq, ?_, rfl⟩
  have length : (UsbRawEpIoHeader.format.put (epHeader ep data.length)).length = 8 :=
    UsbRawEpIoHeader.format.length_put _
  rw [List.take_add, holds.header] at bytes
  rw [holds.data_eq t small, List.append_cancel_left bytes]

/-! ## The sizes -/

/-- The buffer has exactly the words for the header and the data, its header says
what was asked for, the kernel is handed the header and the caller's bytes, and a
read copies what the kernel says it has left, but never more than was asked for,
with every index in range. On endpoint 0 no more is asked for than the buffer holds. -/
theorem ep_io_buf_exact (t : Target) (ep : EpHandle) (handle : ep.value.toNat < 2 ^ 16)
    (buf : List UInt8) (small : buf.length < 2 ^ 32) (room : t.Allocates buf.length) :
    ∃ header : UsbRawEpIoHeader, header.ep.toNat = ep.value.toNat ∧ header.flags = 0 ∧
      header.length.toNat = buf.length ∧
      (∃ b, EpIoBuf.new t ep buf.length = some b ∧
        8 + buf.length ≤ 4 * b.words ∧ 4 * b.words < 8 + buf.length + 4 ∧
        b.header = some header ∧ b.region t = some ⟨8, buf.length⟩ ∧
        b.data t = some ((b.memory.toList.drop 8).take buf.length) ∧
        ∀ (v : Int32) (errno : ℕ) (content : List UInt8), 0 ≤ v → content.length = buf.length →
          let n := min v.toInt.toNat buf.length
          EpIoBuf.epRead t ep buf ⟨v, errno, content⟩ =
            some (b, .ok (n, content.take n ++ buf.drop n))) ∧
      (∀ reply, ∃ b result, EpIoBuf.epWrite t ep buf reply = some (b, result) ∧
        b.memory.toList.take (8 + buf.length) = UsbRawEpIoHeader.format.put header ++ buf) ∧
      ∃ request : UsbRawEpIoHeader, request.ep = 0 ∧ request.flags = 0 ∧
        request.length.toNat = min buf.length 512 ∧
        ∀ (v : Int32) (errno : ℕ) (content : List UInt8), 0 ≤ v → content.length = 512 →
          let n := min v.toInt.toNat (min buf.length 512)
          Ep0IoBuf.ep0Read t buf ⟨v, errno, content⟩ =
            some (request, .ok (n, content.take n ++ buf.drop n)) := by
  have whole {content : List UInt8} {size : ℕ} (length : content.length = size) :
      overwrite (List.replicate size 0) content = content := by
    simp [overwrite, length]
  refine ⟨epHeader ep buf.length, ?_, rfl, ?_, ?_, ?_, ep0Header (min buf.length 512), rfl, rfl,
    ?_, ?_⟩
  · rw [epHeader, UInt32.toNat_toUInt16]
    exact Nat.mod_eq_of_lt handle
  · rw [epHeader, UInt32.toNat_ofNat']
    exact Nat.mod_eq_of_lt small
  · obtain ⟨b, allocated, holds, -⟩ := EpIoBuf.new_holds room small ep
    refine ⟨b, allocated, holds.low, holds.high, holds.header_eq, holds.region_eq t small,
      holds.data_eq t small, ?_⟩
    intro v errno content nonneg length n
    have succeeds : ¬ v < 0 := Int32.not_lt.mpr nonneg
    obtain ⟨b', allocated', -, reads⟩ := EpIoBuf.epRead_eq room small ep
    obtain rfl := Option.some.inj (allocated.symm.trans allocated')
    rw [reads, IoctlReply.result, if_neg succeeds]
    simp only [copyRead, whole length, Int32.toNatClampNeg]
    rfl
  · intro reply
    obtain ⟨b, written, -, bytes⟩ := EpIoBuf.epWrite_eq room small ep reply
    exact ⟨b, _, written, bytes⟩
  · rw [ep0Header, UInt32.toNat_ofNat']
    exact Nat.mod_eq_of_lt (by omega)
  · intro v errno content nonneg length n
    have succeeds : ¬ v < 0 := Int32.not_lt.mpr nonneg
    rw [Ep0IoBuf.ep0Read_eq, IoctlReply.result, if_neg succeeds]
    simp only [copyRead, ep0ReadLen, ep0BufSize, whole length, Int32.toNatClampNeg]
    rfl

/-- The kernel says 7 and has left five bytes, of which the caller has room for all. -/
theorem ep_io_buf_exact_five : ∃ b,
    EpIoBuf.epRead ⟨64, by decide⟩ ⟨3⟩ [1, 2, 3, 4, 5] ⟨7, 0, [9, 8, 7, 6, 5]⟩ =
      some (b, .ok (5, [9, 8, 7, 6, 5])) ∧ b.header = some ⟨3, 0, 5⟩ := by
  obtain ⟨⟨ep, flags, length⟩, hep, hflags, hlength, ⟨b, _, _, _, header, _, _, read⟩, _⟩ :=
    ep_io_buf_exact ⟨64, by decide⟩ ⟨3⟩ (by decide) [1, 2, 3, 4, 5] (by decide)
      (.inl (by decide))
  refine ⟨b, read 7 0 [9, 8, 7, 6, 5] (by decide) rfl, header.trans ?_⟩
  obtain rfl : ep = 3 := UInt16.toNat_inj.mp hep
  obtain rfl : flags = 0 := hflags
  obtain rfl : length = 5 := UInt32.toNat_inj.mp hlength
  rfl

end UsbipDevirt
