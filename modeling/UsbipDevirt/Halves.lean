import UsbipDevirt.Operations

/-!
# The halves as a refinement of the connection

`UsbipWriter` and `UsbipReader` when each of their calls runs to completion
before the next one starts. The writer registers a request before it writes
the command and takes the entry back if the write fails; the connection
registers after the write. As long as the number handed out is not in use,
nobody can tell the difference.

These functions are what the steps of `Split` amount to when nothing
interferes.
-/

namespace UsbipDevirt

open Transition

structure UsbipWriter where
  stream : Output
  devid : UInt32
  nextSeqnum : UInt32

/-- The reader's stream, the writer, and the maps behind their mutex. -/
structure Halves where
  stream : Input
  writer : UsbipWriter
  shared : SharedState

def UsbipConnection.intoSplit (c : UsbipConnection) : Halves where
  stream := c.input
  writer := ⟨c.output, c.devid, c.nextSeqnum⟩
  shared := c.maps

namespace UsbipWriter

/-- `none` is a panic in `alloc_seqnum`. -/
def sendSubmit (build : Build) (w : UsbipWriter) (shared : SharedState) (args : SubmitArgs) :
    Option (Except IoError UInt32 × UsbipWriter × SharedState) :=
  match allocSeqnum build w.nextSeqnum with
  | none => none
  | some (seqnum, next) =>
    -- Register pending BEFORE writing to avoid race with reader
    let shared := { shared with pending := shared.pending.insert seqnum args.direction }
    match writeCmdSubmit w.stream seqnum w.devid args with
    | (.error e, stream) =>
      -- Clean up pending on write failure
      let shared := { shared with pending := shared.pending.erase seqnum }
      some (.error e, { w with stream, nextSeqnum := next }, shared)
    | (.ok _, stream) => some (.ok seqnum, { w with stream, nextSeqnum := next }, shared)

def sendUnlink (build : Build) (w : UsbipWriter) (shared : SharedState) (unlinkSeqnum : UInt32) :
    Option (Except IoError UInt32 × UsbipWriter × SharedState) :=
  match allocSeqnum build w.nextSeqnum with
  | none => none
  | some (seqnum, next) =>
    let shared := { shared with unlinks := shared.unlinks.insert seqnum unlinkSeqnum }
    match writeCmdUnlink w.stream seqnum w.devid unlinkSeqnum with
    | (.error e, stream) =>
      let shared := { shared with unlinks := shared.unlinks.erase seqnum }
      some (.error e, { w with stream, nextSeqnum := next }, shared)
    | (.ok _, stream) => some (.ok seqnum, { w with stream, nextSeqnum := next }, shared)

def send (build : Build) (w : UsbipWriter) (shared : SharedState) :
    Command → Option (Except IoError UInt32 × UsbipWriter × SharedState)
  | .submit args => w.sendSubmit build shared args
  | .unlink target => w.sendUnlink build shared target

end UsbipWriter

def Halves.perform (build : Build) (h : Halves) : Operation → Option (Outcome × Halves)
  | .send cmd => (h.writer.send build h.shared cmd).map fun (result, writer, shared) =>
    (.sent result, { h with writer, shared })
  | .recv =>
    let (result, side) := UsbipReader.recv ⟨h.stream, h.shared⟩
    some (.received result, { h with stream := side.input, shared := side.maps })

/-! ## The steps of the writer on their own -/

/-- Both sending functions register, write, and unregister after a failure. -/
theorem UsbipWriter.send_eq (build : Build) (w : UsbipWriter) (shared : SharedState)
    (cmd : Command) :
    w.send build shared cmd = (allocSeqnum build w.nextSeqnum).map fun (seqnum, next) =>
      match cmd.write w.stream seqnum w.devid with
      | (.error e, stream) => (.error e, { w with stream, nextSeqnum := next },
        (shared.register seqnum cmd).unregister seqnum cmd)
      | (.ok _, stream) =>
        (.ok seqnum, { w with stream, nextSeqnum := next }, shared.register seqnum cmd) := by
  cases halloc : allocSeqnum build w.nextSeqnum with
  | none => cases cmd <;> simp [send, sendSubmit, sendUnlink, halloc]
  | some pair =>
    obtain ⟨seqnum, next⟩ := pair
    cases cmd with
    | submit args =>
      simp only [send, sendSubmit, halloc, Option.map_some, Command.write]
      split <;> rfl
    | unlink target =>
      simp only [send, sendUnlink, halloc, Option.map_some, Command.write]
      split <;> rfl

/-- An idle writer that is never kept waiting for the mutex returns what the
sequential function returns and leaves the same counter, bytes and maps. -/
theorem Split.writer_alone {s : Split} {cmd : Command} {fates : List Fate}
    {result : Except IoError UInt32} {w : UsbipWriter} {shared : SharedState}
    (idle : s.writer = .idle) (free : s.lock = none)
    (sends : UsbipWriter.send s.build ⟨⟨s.sent, fates⟩, s.devid, s.nextSeqnum⟩ s.shared cmd =
      some (result, w, shared)) :
    ∃ n written, exec step s (.call cmd :: List.replicate n (.writer fates)) =
      some { s with
        sent := w.stream.sent, nextSeqnum := w.nextSeqnum, shared, writer := .returned result,
        issued := s.issued ++ [cmd], written := s.written ++ written } := by
  rw [UsbipWriter.send_eq] at sends
  obtain ⟨⟨seqnum, next⟩, halloc, heq⟩ := Option.map_eq_some_iff.mp sends
  cases hw : cmd.write ⟨s.sent, fates⟩ seqnum s.devid with
  | mk outcome stream =>
    cases outcome with
    | error e =>
      simp only [hw, Prod.mk.injEq] at heq
      obtain ⟨rfl, rfl, rfl⟩ := heq
      refine ⟨5, [], ?_⟩
      simp [List.replicate, exec, step, call, writerStep, idle, free, halloc, hw]
    | ok =>
      simp only [hw, Prod.mk.injEq] at heq
      obtain ⟨rfl, rfl, rfl⟩ := heq
      refine ⟨3, [(seqnum, cmd)], ?_⟩
      simp [List.replicate, exec, step, call, writerStep, idle, free, halloc, hw]

/-! ## The refinement -/

/-- Registering a new number and taking it back changes nothing. -/
theorem SharedState.unregister_register {maps : SharedState} {seqnum : UInt32} (cmd : Command)
    (fresh : ¬ maps.Live seqnum) : (maps.register seqnum cmd).unregister seqnum cmd = maps := by
  rw [live_iff, not_or, not_not, not_not] at fresh
  have back {V : Type} (m : Table UInt32 V) (v : V) (h : m.lookup seqnum = none) :
      (m.insert seqnum v).erase seqnum = m := by
    apply Finmap.ext_lookup
    intro k
    by_cases hk : k = seqnum
    · rw [hk, h]
      simp
    · simp [hk]
  cases cmd with
  | submit args => rw [register, unregister, back _ _ fresh.1]
  | unlink target => rw [register, unregister, back _ _ fresh.2]

/-- One operation with a fresh number. -/
theorem UsbipConnection.perform_intoSplit (build : Build) {c : UsbipConnection}
    (fresh : ¬ c.maps.Live c.nextSeqnum) {op : Operation} {o : Outcome} {c' : UsbipConnection}
    (step : c.perform build op = some (o, c')) :
    c.intoSplit.perform build op = some (o, c'.intoSplit) := by
  cases perform_cases step with
  | sent alloc ok =>
    simp only [Halves.perform, intoSplit, UsbipWriter.send_eq, alloc, Option.map_some, ok]
  | @failed cmd _ _ _ alloc error =>
    simp only [Halves.perform, intoSplit, UsbipWriter.send_eq, alloc, Option.map_some, error,
      SharedState.unregister_register cmd fresh]
  | received decodes =>
    simp only [Halves.perform, intoSplit, UsbipReader.recv_eq, decodes]

/-- Whatever operations follow, the connection and its halves return the same
results, and after each operation they agree on the bytes written, the maps and
the counter. -/
theorem split_refines_connection (build : Build) (input : Input) (output : Output)
    (busnum devnum : UInt32) (before : OperationLog) (c : UsbipConnection)
    (reached : Operates build (.imported input output busnum devnum) before c)
    (ops : List Operation)
    (bound : allocations (before.map Entry.action ++ ops) < 2 ^ 32 - 1) :
    ∃ log c', log.map Entry.action = ops ∧ Operates build c log c' ∧
      Logged (Halves.perform build) c.intoSplit (log.map (Entry.map UsbipConnection.intoSplit))
        c'.intoSplit := by
  have start := allotted_of_operates (.initial input output busnum devnum) reached
  rw [allocations_append] at bound
  obtain ⟨log, c', rfl, run⟩ := operates_exists build start ops (by omega)
  refine ⟨log, c', rfl, run, run.image UsbipConnection.intoSplit fun e he => ?_⟩
  have fresh := fresh_of_operates start run (by omega) e he
  exact UsbipConnection.perform_intoSplit build fresh (run.performed e he)

/-- A connection whose second command breaks off after three bytes. -/
def breakingConnection : UsbipConnection :=
  .imported ⟨[], ⟨.unexpectedEof, "failed to fill whole buffer"⟩⟩
    ⟨[], [.ok, .ok, .error 3 ⟨.brokenPipe, "Broken pipe"⟩]⟩ 1 2

theorem split_refines_connection_breaking :
    ∃ log c', log.map Entry.action = [.send (.submit interruptUrb), .send (.unlink 1), .recv] ∧
      Operates .checked breakingConnection log c' ∧
      Logged (Halves.perform .checked) breakingConnection.intoSplit
        (log.map (Entry.map UsbipConnection.intoSplit)) c'.intoSplit :=
  split_refines_connection .checked _ _ 1 2 [] breakingConnection .start _ (by decide)

end UsbipDevirt
