import UsbipDevirt.Lib.Table
import UsbipDevirt.Wire

/-!
# The USB/IP client

`UsbipConnection` and the functions it shares with the halves of a split
connection. The socket is two byte streams. What it still delivers is an
`Input`; what was written to it is an `Output`, whose list of fates decides
the writes to come, so a run may fail at any write after any part of it.

The two maps of a connection are one record here, under the name they have
once the connection is split.
-/

namespace UsbipDevirt

open Bytes

/-! ## The socket -/

/-- Bytes still to be read, and the error of a read that needs more than these:
end of file or a failure of the transport. -/
@[ext] structure Input where
  bytes : List UInt8
  failure : IoError
  deriving DecidableEq

def Input.readExact (r : Input) (n : Nat) : Except IoError (List UInt8) × Input :=
  if n ≤ r.bytes.length then (.ok (r.bytes.take n), { r with bytes := r.bytes.drop n })
  else (.error r.failure, { r with bytes := [] })

inductive Fate where
  | ok
  | error (written : Nat) (e : IoError)
  deriving DecidableEq

/-- Bytes written so far and the fates of the next writes; writes without a
recorded fate succeed. -/
structure Output where
  sent : List UInt8
  fates : List Fate
  deriving DecidableEq

def Output.writeAll (w : Output) (bytes : List UInt8) : Except IoError Unit × Output :=
  match w.fates with
  | [] => (.ok (), { w with sent := w.sent ++ bytes })
  | .ok :: fates => (.ok (), ⟨w.sent ++ bytes, fates⟩)
  | .error n e :: fates => (.error e, ⟨w.sent ++ bytes.take n, fates⟩)

/-- Flushing writes nothing itself but may report a failure. -/
def Output.flush (w : Output) : Except IoError Unit × Output := w.writeAll []

/-! ## Sending -/

/-- The arguments of `send_submit`. -/
structure SubmitArgs where
  ep : UInt32
  direction : Direction
  transferFlags : UInt32
  transferBufferLength : UInt32
  setup : List.Vector UInt8 8
  data : List UInt8
  interval : UInt32
  deriving DecidableEq

def SubmitArgs.header (args : SubmitArgs) (seqnum devid : UInt32) : CmdSubmitHeader where
  command := usbipCmdSubmit
  seqnum := seqnum
  devid := devid
  direction := args.direction.toUInt32
  ep := args.ep
  transferFlags := args.transferFlags
  transferBufferLength := args.transferBufferLength
  startFrame := 0
  numberOfPackets := 0xffffffff
  interval := args.interval
  setup := args.setup

def writeCmdSubmit (w : Output) (seqnum devid : UInt32) (args : SubmitArgs) :
    Except IoError Unit × Output :=
  match w.writeAll (CmdSubmitHeader.format.put (args.header seqnum devid)) with
  | (.error e, w) => (.error e, w)
  | (.ok _, w) =>
    -- transfer_buffer for OUT direction
    if args.direction = .out ∧ args.data ≠ [] then
      match w.writeAll args.data with
      | (.error e, w) => (.error e, w)
      | (.ok _, w) => w.flush
    else w.flush

def unlinkHeader (seqnum devid unlinkSeqnum : UInt32) : CmdUnlinkHeader where
  command := usbipCmdUnlink
  seqnum := seqnum
  devid := devid
  direction := 0
  ep := 0
  unlinkSeqnum := unlinkSeqnum
  padding := List.Vector.replicate 24 0

def writeCmdUnlink (w : Output) (seqnum devid unlinkSeqnum : UInt32) :
    Except IoError Unit × Output :=
  match w.writeAll (CmdUnlinkHeader.format.put (unlinkHeader seqnum devid unlinkSeqnum)) with
  | (.error e, w) => (.error e, w)
  | (.ok _, w) => w.flush

/-- The two commands, each with the arguments of its sending function. -/
inductive Command where
  | submit (args : SubmitArgs)
  | unlink (unlinkSeqnum : UInt32)
  deriving DecidableEq

def Command.write (w : Output) (seqnum devid : UInt32) : Command → Except IoError Unit × Output
  | .submit args => writeCmdSubmit w seqnum devid args
  | .unlink target => writeCmdUnlink w seqnum devid target

/-- The payload that follows a CMD_SUBMIT header. -/
def SubmitArgs.payload (args : SubmitArgs) : List UInt8 :=
  if args.direction = .out then args.data else []

/-- All the bytes of a command. -/
def Command.encode (seqnum devid : UInt32) : Command → List UInt8
  | .submit args => CmdSubmitHeader.format.put (args.header seqnum devid) ++ args.payload
  | .unlink target => CmdUnlinkHeader.format.put (unlinkHeader seqnum devid target)

theorem Output.writeAll_ok {w w' : Output} {bytes : List UInt8}
    (h : w.writeAll bytes = (.ok (), w')) : w'.sent = w.sent ++ bytes := by
  unfold Output.writeAll at h
  split at h <;> simp only [Prod.mk.injEq, reduceCtorEq, false_and, true_and] at h <;>
    subst h <;> rfl

theorem Output.flush_ok {w w' : Output} (h : w.flush = (.ok (), w')) : w'.sent = w.sent := by
  simpa using Output.writeAll_ok h

/-- A socket that takes every write. -/
def Output.Accepts (w : Output) : Prop := ∀ fate ∈ w.fates, fate = .ok

theorem Output.Accepts.writeAll {w : Output} (h : w.Accepts) (bytes : List UInt8) :
    ∃ w', w.writeAll bytes = (.ok (), w') ∧ w'.Accepts := by
  obtain ⟨sent, fates⟩ := w
  cases fates with
  | nil => exact ⟨_, rfl, h⟩
  | cons fate fates =>
    obtain ⟨rfl, rest⟩ := List.forall_mem_cons.mp h
    exact ⟨_, rfl, rest⟩

/-- A write that succeeds has put the whole command on the wire. -/
theorem Command.write_ok {w w' : Output} {seqnum devid : UInt32} {cmd : Command}
    (h : cmd.write w seqnum devid = (.ok (), w')) :
    w'.sent = w.sent ++ cmd.encode seqnum devid := by
  cases cmd with
  | submit args =>
    simp only [Command.write, writeCmdSubmit] at h
    split at h
    · cases h
    · next w₁ hw₁ =>
      have head := Output.writeAll_ok hw₁
      split at h
      · next hout =>
        split at h
        · cases h
        · next w₂ hw₂ =>
          have body := Output.writeAll_ok hw₂
          rw [Output.flush_ok h, body, head]
          simp [Command.encode, SubmitArgs.payload, hout.1]
      · next hnot =>
        have nothing : args.payload = [] := by
          unfold SubmitArgs.payload
          split
          · next hd => simpa [hd] using hnot
          · rfl
        rw [Output.flush_ok h, head]
        simp [Command.encode, nothing]
  | unlink target =>
    simp only [Command.write, writeCmdUnlink] at h
    split at h
    · cases h
    · next w₁ hw₁ =>
      rw [Output.flush_ok h, Output.writeAll_ok hw₁]
      rfl

theorem Command.write_of_no_fates (sent : List UInt8) (seqnum devid : UInt32) (cmd : Command) :
    cmd.write ⟨sent, []⟩ seqnum devid = (.ok (), ⟨sent ++ cmd.encode seqnum devid, []⟩) := by
  cases cmd with
  | submit args =>
    by_cases hd : args.direction = .out
    · by_cases he : args.data = []
      · simp [Command.write, writeCmdSubmit, Output.writeAll, Output.flush, Command.encode,
          SubmitArgs.payload, hd, he]
      · simp [Command.write, writeCmdSubmit, Output.writeAll, Output.flush, Command.encode,
          SubmitArgs.payload, hd, he]
    · simp [Command.write, writeCmdSubmit, Output.writeAll, Output.flush, Command.encode,
        SubmitArgs.payload, hd]
  | unlink target =>
    simp [Command.write, writeCmdUnlink, Output.writeAll, Output.flush, Command.encode]

/-! ## Sequence numbers -/

/-- How `+=` on the counter behaves at its limit. -/
inductive Build where
  | checked
  | release
  deriving DecidableEq, Repr

/-- `alloc_seqnum` returns the counter and increments it; `none` is the panic
of a build with overflow checks. -/
def allocSeqnum (build : Build) (next : UInt32) : Option (UInt32 × UInt32) :=
  if build = .checked ∧ next = 0xffffffff then none else some (next, next + 1)

/-! ## Receiving -/

structure SharedState where
  pending : Table UInt32 Direction
  unlinks : Table UInt32 UInt32
  deriving DecidableEq

/-- `seqnum` is a key of one of the maps. -/
def SharedState.Live (maps : SharedState) (seqnum : UInt32) : Prop :=
  seqnum ∈ maps.pending ∨ seqnum ∈ maps.unlinks

def unknownSeqnum (seqnum : UInt32) : IoError :=
  ⟨.invalidData, s!"RET_SUBMIT for unknown seqnum {seqnum}"⟩

def unknownCommand (command : UInt32) : IoError :=
  ⟨.invalidData, s!"unknown URB response command: {command}"⟩

def RetSubmitHeader.toRet (header : RetSubmitHeader) (data : List UInt8)
    (direction : Direction) : RetSubmit where
  seqnum := header.seqnum
  status := header.status
  actualLength := header.actualLength
  data := data
  direction := direction

/-- The map updates of a RET_UNLINK: the entry of the unlink request goes, and
with it the entry of its target when the server did cancel it. -/
def SharedState.applyUnlink (maps : SharedState) (header : RetUnlinkHeader) : SharedState :=
  match maps.unlinks.lookup header.seqnum with
  | none => maps
  | some target =>
    let unlinks := maps.unlinks.erase header.seqnum
    if header.status = -econnreset then ⟨maps.pending.erase target, unlinks⟩
    else { maps with unlinks }

/-- What a receiving function reads and updates. -/
@[ext] structure ReadSide where
  input : Input
  maps : SharedState
  deriving DecidableEq

def recvUrbResponse (r : ReadSide) : Except IoError UrbResponse × ReadSide :=
  match r.input.readExact 48 with
  | (.error e, input) => (.error e, ⟨input, r.maps⟩)
  | (.ok buf, input) =>
    match parseHeader buf with
    | .retSubmit header =>
      match r.maps.pending.lookup header.seqnum with
      | none => (.error (unknownSeqnum header.seqnum), ⟨input, r.maps⟩)
      | some direction =>
        let maps := { r.maps with pending := r.maps.pending.erase header.seqnum }
        if direction = .in ∧ 0 < header.actualLength then
          match input.readExact header.actualLength.toNat with
          | (.error e, input) => (.error e, ⟨input, maps⟩)
          | (.ok data, input) => (.ok (.submit (header.toRet data direction)), ⟨input, maps⟩)
        else (.ok (.submit (header.toRet [] direction)), ⟨input, maps⟩)
    | .retUnlink header =>
      (.ok (.unlink ⟨header.seqnum, header.status⟩), ⟨input, r.maps.applyUnlink header⟩)
    | .unknown command => (.error (unknownCommand command), ⟨input, r.maps⟩)

/-- The reader half decodes with the `SharedState` mutex taken around each use
of the maps; run alone, it always gets the mutex. -/
def UsbipReader.recv (r : ReadSide) : Except IoError UrbResponse × ReadSide :=
  match r.input.readExact 48 with
  | (.error e, stream) => (.error e, { r with input := stream })
  | (.ok buf, stream) =>
    match parseHeader buf with
    | .retSubmit header =>
      let removed := r.maps.pending.lookup header.seqnum
      let shared := { r.maps with pending := r.maps.pending.erase header.seqnum }
      match removed with
      | none => (.error (unknownSeqnum header.seqnum), ⟨stream, shared⟩)
      | some direction =>
        if direction = .in ∧ 0 < header.actualLength then
          match stream.readExact header.actualLength.toNat with
          | (.error e, stream) => (.error e, ⟨stream, shared⟩)
          | (.ok data, stream) =>
            (.ok (.submit (header.toRet data direction)), ⟨stream, shared⟩)
        else (.ok (.submit (header.toRet [] direction)), ⟨stream, shared⟩)
    | .retUnlink header =>
      (.ok (.unlink ⟨header.seqnum, header.status⟩), ⟨stream, r.maps.applyUnlink header⟩)
    | .unknown command => (.error (unknownCommand command), { r with input := stream })

/-- Removing a key that is not there changes nothing, so the halves decode
exactly as the unsplit connection does. -/
theorem UsbipReader.recv_eq (r : ReadSide) : UsbipReader.recv r = recvUrbResponse r := by
  unfold UsbipReader.recv recvUrbResponse
  split
  · rfl
  · split
    · next header _ =>
      cases hd : r.maps.pending.lookup header.seqnum with
      | none => simp only [Table.erase_of_lookup_none _ _ hd]
      | some direction => simp only
    · rfl
    · rfl

/-! ## The unsplit connection -/

structure UsbipConnection where
  input : Input
  output : Output
  devid : UInt32
  nextSeqnum : UInt32
  maps : SharedState
  deriving DecidableEq

namespace UsbipConnection

/-- The connection `import_device` returns, on a socket with this traffic. -/
def imported (input : Input) (output : Output) (busnum devnum : UInt32) : UsbipConnection where
  input := input
  output := output
  devid := (busnum <<< 16) ||| devnum
  nextSeqnum := 1
  maps := ⟨∅, ∅⟩

/-- `none` is a panic in `alloc_seqnum`. -/
def sendSubmit (build : Build) (c : UsbipConnection) (args : SubmitArgs) :
    Option (Except IoError UInt32 × UsbipConnection) :=
  match allocSeqnum build c.nextSeqnum with
  | none => none
  | some (seqnum, next) =>
    match writeCmdSubmit c.output seqnum c.devid args with
    | (.error e, output) => some (.error e, { c with output, nextSeqnum := next })
    | (.ok _, output) =>
      let pending := c.maps.pending.insert seqnum args.direction
      some (.ok seqnum, { c with output, nextSeqnum := next, maps := { c.maps with pending } })

def sendUnlink (build : Build) (c : UsbipConnection) (unlinkSeqnum : UInt32) :
    Option (Except IoError UInt32 × UsbipConnection) :=
  match allocSeqnum build c.nextSeqnum with
  | none => none
  | some (seqnum, next) =>
    match writeCmdUnlink c.output seqnum c.devid unlinkSeqnum with
    | (.error e, output) => some (.error e, { c with output, nextSeqnum := next })
    | (.ok _, output) =>
      let unlinks := c.maps.unlinks.insert seqnum unlinkSeqnum
      some (.ok seqnum, { c with output, nextSeqnum := next, maps := { c.maps with unlinks } })

def recv (c : UsbipConnection) : Except IoError UrbResponse × UsbipConnection :=
  let (result, side) := recvUrbResponse ⟨c.input, c.maps⟩
  (result, { c with input := side.input, maps := side.maps })

end UsbipConnection

end UsbipDevirt
