import UsbipDevirt.Lib.Transition
import UsbipDevirt.Client

/-!
# The halves of a split connection

`UsbipWriter` and `UsbipReader` run in different threads and share the maps
behind a mutex. Their operations are broken up at every point where the other
half or the server can act: taking the mutex, the critical section under it,
the socket write, and each read that may have to wait for bytes. Both the
server and the peer half are free to act between any two of these steps.
-/

namespace UsbipDevirt

inductive Half where
  | writer
  | reader
  deriving DecidableEq, Repr

/-- Where `send_submit` or `send_unlink` stands, with its local variables. -/
inductive WriterPc where
  | idle
  | lockInsert (seqnum : UInt32) (cmd : Command)
  | insert (seqnum : UInt32) (cmd : Command)
  | write (seqnum : UInt32) (cmd : Command)
  | lockRemove (seqnum : UInt32) (cmd : Command) (e : IoError)
  | remove (seqnum : UInt32) (cmd : Command) (e : IoError)
  | returned (result : Except IoError UInt32)
  | panicked

/-- Where `UsbipReader::recv` stands. -/
inductive ReaderPc where
  | header
  | lockSubmit (header : RetSubmitHeader)
  | removeSubmit (header : RetSubmitHeader)
  | payload (header : RetSubmitHeader) (direction : Direction)
  | lockUnlink (header : RetUnlinkHeader)
  | removeUnlink (header : RetUnlinkHeader)
  | returned (result : Except IoError UrbResponse)

/-- `arrived` are the bytes the server sent that were not read yet and
`closed` the error of reading past them, once the stream has ended. The last
three fields record the run: the commands in the order of their sequence
numbers, those whose write succeeded, and the RET_SUBMITs decoded. -/
structure Split where
  build : Build
  devid : UInt32
  nextSeqnum : UInt32
  sent : List UInt8
  arrived : List UInt8
  closed : Option IoError
  shared : SharedState
  lock : Option Half
  writer : WriterPc
  reader : ReaderPc
  issued : List Command
  written : List (UInt32 × Command)
  decoded : List (RetSubmitHeader × RetSubmit)

/-- Registration before the write. -/
def SharedState.register (maps : SharedState) (seqnum : UInt32) : Command → SharedState
  | .submit args => { maps with pending := maps.pending.insert seqnum args.direction }
  | .unlink target => { maps with unlinks := maps.unlinks.insert seqnum target }

/-- Clean-up after a failed write. -/
def SharedState.unregister (maps : SharedState) (seqnum : UInt32) : Command → SharedState
  | .submit _ => { maps with pending := maps.pending.erase seqnum }
  | .unlink _ => { maps with unlinks := maps.unlinks.erase seqnum }

namespace Split

/-- `into_split` of a connection with the given counter and maps. -/
def ofConnection (build : Build) (c : UsbipConnection) : Split where
  build := build
  devid := c.devid
  nextSeqnum := c.nextSeqnum
  sent := c.output.sent
  arrived := []
  closed := none
  shared := c.maps
  lock := none
  writer := .idle
  reader := .header
  issued := []
  written := []
  decoded := []

/-- Entering `send_submit` or `send_unlink`: the sequence number is allocated first. -/
def call (s : Split) (cmd : Command) : Option Split :=
  match s.writer with
  | .idle =>
    match allocSeqnum s.build s.nextSeqnum with
    | none => some { s with writer := .panicked }
    | some (seqnum, next) =>
      some { s with
        nextSeqnum := next, writer := .lockInsert seqnum cmd, issued := s.issued ++ [cmd] }
  | _ => none

/-- The writer's next step; `fates` decides a socket write. -/
def writerStep (s : Split) (fates : List Fate) : Option Split :=
  match s.writer with
  | .lockInsert seqnum cmd =>
    if s.lock = none then some { s with lock := some .writer, writer := .insert seqnum cmd }
    else none
  | .insert seqnum cmd =>
    some { s with
      shared := s.shared.register seqnum cmd, lock := none, writer := .write seqnum cmd }
  | .write seqnum cmd =>
    match cmd.write ⟨s.sent, fates⟩ seqnum s.devid with
    | (.ok _, out) =>
      some { s with
        sent := out.sent, writer := .returned (.ok seqnum),
        written := s.written ++ [(seqnum, cmd)] }
    | (.error e, out) => some { s with sent := out.sent, writer := .lockRemove seqnum cmd e }
  | .lockRemove seqnum cmd e =>
    if s.lock = none then some { s with lock := some .writer, writer := .remove seqnum cmd e }
    else none
  | .remove seqnum cmd e =>
    some { s with
      shared := s.shared.unregister seqnum cmd, lock := none, writer := .returned (.error e) }
  | .idle | .returned _ | .panicked => none

/-- The caller takes the writer's result. -/
def collect (s : Split) : Option (Except IoError UInt32 × Split) :=
  match s.writer with
  | .returned result => some (result, { s with writer := .idle })
  | _ => none

def returnSubmit (s : Split) (header : RetSubmitHeader) (data : List UInt8)
    (direction : Direction) : Split :=
  let ret := header.toRet data direction
  { s with
    reader := .returned (.ok (.submit ret)), decoded := s.decoded ++ [(header, ret)] }

/-- The reader's next step; `none` while it waits for the mutex or for bytes. -/
def readerStep (s : Split) : Option Split :=
  match s.reader with
  | .header =>
    if 48 ≤ s.arrived.length then
      let rest := { s with arrived := s.arrived.drop 48 }
      match parseHeader (s.arrived.take 48) with
      | .retSubmit header => some { rest with reader := .lockSubmit header }
      | .retUnlink header => some { rest with reader := .lockUnlink header }
      | .unknown command => some { rest with reader := .returned (.error (unknownCommand command)) }
    else s.closed.map fun e => { s with arrived := [], reader := .returned (.error e) }
  | .lockSubmit header =>
    if s.lock = none then some { s with lock := some .reader, reader := .removeSubmit header }
    else none
  | .removeSubmit header =>
    let shared := { s.shared with pending := s.shared.pending.erase header.seqnum }
    match s.shared.pending.lookup header.seqnum with
    | none =>
      some { s with
        shared, lock := none, reader := .returned (.error (unknownSeqnum header.seqnum)) }
    | some direction => some { s with shared, lock := none, reader := .payload header direction }
  | .payload header direction =>
    if direction = .in ∧ 0 < header.actualLength then
      if header.actualLength.toNat ≤ s.arrived.length then
        some (returnSubmit { s with arrived := s.arrived.drop header.actualLength.toNat } header
          (s.arrived.take header.actualLength.toNat) direction)
      else s.closed.map fun e => { s with arrived := [], reader := .returned (.error e) }
    else some (returnSubmit s header [] direction)
  | .lockUnlink header =>
    if s.lock = none then some { s with lock := some .reader, reader := .removeUnlink header }
    else none
  | .removeUnlink header =>
    some { s with
      shared := s.shared.applyUnlink header, lock := none,
      reader := .returned (.ok (.unlink ⟨header.seqnum, header.status⟩)) }
  | .returned _ => none

/-- The caller of `recv` takes the result; the next call starts at a header. -/
def takeResponse (s : Split) : Option (Except IoError UrbResponse × Split) :=
  match s.reader with
  | .returned result => some (result, { s with reader := .header })
  | _ => none

def deliver (s : Split) (bytes : List UInt8) : Option Split :=
  if s.closed = none then some { s with arrived := s.arrived ++ bytes } else none

def close (s : Split) (e : IoError) : Option Split :=
  if s.closed = none then some { s with closed := some e } else none

inductive Action where
  | call (cmd : Command)
  | writer (fates : List Fate)
  | collect
  | reader
  | takeResponse
  | deliver (bytes : List UInt8)
  | close (e : IoError)

def step (s : Split) : Action → Option Split
  | .call cmd => s.call cmd
  | .writer fates => s.writerStep fates
  | .collect => s.collect.map Prod.snd
  | .reader => s.readerStep
  | .takeResponse => s.takeResponse.map Prod.snd
  | .deliver bytes => s.deliver bytes
  | .close e => s.close e

/-! ## What one step can do -/

theorem call_cases {s t : Split} {cmd : Command} (h : s.call cmd = some t) :
    s.writer = .idle ∧
      ((allocSeqnum s.build s.nextSeqnum = none ∧ t = { s with writer := .panicked }) ∨
        ∃ seqnum next, allocSeqnum s.build s.nextSeqnum = some (seqnum, next) ∧
          t = { s with
            nextSeqnum := next
            writer := .lockInsert seqnum cmd
            issued := s.issued ++ [cmd] }) := by
  unfold call at h
  split at h
  · next hpc =>
    refine ⟨hpc, ?_⟩
    split at h
    · next halloc => exact .inl ⟨halloc, (Option.some.inj h).symm⟩
    · next seqnum next halloc => exact .inr ⟨seqnum, next, halloc, (Option.some.inj h).symm⟩
  · cases h

/-- One constructor for each step of the writer. -/
inductive WriterMove (s : Split) (fates : List Fate) : Split → Prop where
  | lockInsert {seqnum cmd} (pc : s.writer = .lockInsert seqnum cmd) (free : s.lock = none) :
      WriterMove s fates { s with lock := some .writer, writer := .insert seqnum cmd }
  | insert {seqnum cmd} (pc : s.writer = .insert seqnum cmd) :
      WriterMove s fates { s with
        shared := s.shared.register seqnum cmd, lock := none, writer := .write seqnum cmd }
  | written {seqnum cmd out} (pc : s.writer = .write seqnum cmd)
      (ok : cmd.write ⟨s.sent, fates⟩ seqnum s.devid = (.ok (), out)) :
      WriterMove s fates { s with
        sent := out.sent, writer := .returned (.ok seqnum),
        written := s.written ++ [(seqnum, cmd)] }
  | failed {seqnum cmd out e} (pc : s.writer = .write seqnum cmd)
      (error : cmd.write ⟨s.sent, fates⟩ seqnum s.devid = (.error e, out)) :
      WriterMove s fates { s with sent := out.sent, writer := .lockRemove seqnum cmd e }
  | lockRemove {seqnum cmd e} (pc : s.writer = .lockRemove seqnum cmd e) (free : s.lock = none) :
      WriterMove s fates { s with lock := some .writer, writer := .remove seqnum cmd e }
  | remove {seqnum cmd e} (pc : s.writer = .remove seqnum cmd e) :
      WriterMove s fates { s with
        shared := s.shared.unregister seqnum cmd, lock := none, writer := .returned (.error e) }

theorem writerStep_cases {s t : Split} {fates : List Fate} (h : s.writerStep fates = some t) :
    WriterMove s fates t := by
  unfold writerStep at h
  split at h
  · next hpc =>
    split at h
    · next hfree => exact Option.some.inj h ▸ .lockInsert hpc hfree
    · cases h
  · next hpc => exact Option.some.inj h ▸ .insert hpc
  · next hpc =>
    split at h
    · next hw => exact Option.some.inj h ▸ .written hpc hw
    · next hw => exact Option.some.inj h ▸ .failed hpc hw
  · next hpc =>
    split at h
    · next hfree => exact Option.some.inj h ▸ .lockRemove hpc hfree
    · cases h
  · next hpc => exact Option.some.inj h ▸ .remove hpc
  · cases h
  · cases h
  · cases h

/-- One constructor for each step of the reader. -/
inductive ReaderMove (s : Split) : Split → Prop where
  | submitHeader {header} (pc : s.reader = .header) (enough : 48 ≤ s.arrived.length)
      (parsed : parseHeader (s.arrived.take 48) = .retSubmit header) :
      ReaderMove s { s with arrived := s.arrived.drop 48, reader := .lockSubmit header }
  | unlinkHeader {header} (pc : s.reader = .header) (enough : 48 ≤ s.arrived.length)
      (parsed : parseHeader (s.arrived.take 48) = .retUnlink header) :
      ReaderMove s { s with arrived := s.arrived.drop 48, reader := .lockUnlink header }
  | unknownCommand {command} (pc : s.reader = .header) (enough : 48 ≤ s.arrived.length)
      (parsed : parseHeader (s.arrived.take 48) = .unknown command) :
      ReaderMove s { s with
        arrived := s.arrived.drop 48,
        reader := .returned (.error (UsbipDevirt.unknownCommand command)) }
  | ended {e} (pc : s.reader = .header ∨ ∃ header direction, s.reader = .payload header direction)
      (closed : s.closed = some e) :
      ReaderMove s { s with arrived := [], reader := .returned (.error e) }
  | lockSubmit {header} (pc : s.reader = .lockSubmit header) (free : s.lock = none) :
      ReaderMove s { s with lock := some .reader, reader := .removeSubmit header }
  | unknownSeqnum {header} (pc : s.reader = .removeSubmit header)
      (absent : s.shared.pending.lookup header.seqnum = none) :
      ReaderMove s { s with
        shared := { s.shared with pending := s.shared.pending.erase header.seqnum },
        lock := none, reader := .returned (.error (UsbipDevirt.unknownSeqnum header.seqnum)) }
  | removeSubmit {header direction} (pc : s.reader = .removeSubmit header)
      (present : s.shared.pending.lookup header.seqnum = some direction) :
      ReaderMove s { s with
        shared := { s.shared with pending := s.shared.pending.erase header.seqnum },
        lock := none, reader := .payload header direction }
  | payload {header direction n} (pc : s.reader = .payload header direction)
      (amount : n = if direction = .in then header.actualLength.toNat else 0)
      (enough : n ≤ s.arrived.length) :
      ReaderMove s
        (returnSubmit { s with arrived := s.arrived.drop n } header (s.arrived.take n) direction)
  | lockUnlink {header} (pc : s.reader = .lockUnlink header) (free : s.lock = none) :
      ReaderMove s { s with lock := some .reader, reader := .removeUnlink header }
  | removeUnlink {header} (pc : s.reader = .removeUnlink header) :
      ReaderMove s { s with
        shared := s.shared.applyUnlink header, lock := none,
        reader := .returned (.ok (.unlink ⟨header.seqnum, header.status⟩)) }

theorem readerStep_cases {s t : Split} (h : s.readerStep = some t) : ReaderMove s t := by
  unfold readerStep at h
  split at h
  · next hpc =>
    split at h
    · next henough =>
      dsimp only at h
      split at h
      · next hp => exact Option.some.inj h ▸ .submitHeader hpc henough hp
      · next hp => exact Option.some.inj h ▸ .unlinkHeader hpc henough hp
      · next hp => exact Option.some.inj h ▸ .unknownCommand hpc henough hp
    · obtain ⟨e, hclosed, rfl⟩ := Option.map_eq_some_iff.mp h
      exact .ended (.inl hpc) hclosed
  · next hpc =>
    split at h
    · next hfree => exact Option.some.inj h ▸ .lockSubmit hpc hfree
    · cases h
  · next hpc =>
    dsimp only at h
    split at h
    · next hd => exact Option.some.inj h ▸ .unknownSeqnum hpc hd
    · next hd => exact Option.some.inj h ▸ .removeSubmit hpc hd
  · next header direction hpc =>
    split at h
    · next hin =>
      split at h
      · next hlen =>
        exact Option.some.inj h ▸ .payload hpc (by rw [if_pos hin.1]) hlen
      · obtain ⟨e, hclosed, rfl⟩ := Option.map_eq_some_iff.mp h
        exact .ended (.inr ⟨_, _, hpc⟩) hclosed
    · next hnot =>
      have hzero : 0 = if direction = .in then header.actualLength.toNat else 0 := by
        split
        · next hin =>
          have : ¬ 0 < header.actualLength := fun hpos => hnot ⟨hin, hpos⟩
          simp only [UInt32.lt_iff_toNat_lt, UInt32.toNat_zero] at this
          omega
        · rfl
      exact Option.some.inj h ▸ .payload (n := 0) hpc hzero (Nat.zero_le _)
  · next hpc =>
    split at h
    · next hfree => exact Option.some.inj h ▸ .lockUnlink hpc hfree
    · cases h
  · next hpc => exact Option.some.inj h ▸ .removeUnlink hpc
  · cases h

theorem collect_cases {s t : Split} {result : Except IoError UInt32}
    (h : s.collect = some (result, t)) :
    s.writer = .returned result ∧ t = { s with writer := .idle } := by
  unfold collect at h
  split at h
  · next hpc =>
    obtain ⟨rfl, rfl⟩ := Prod.mk.inj (Option.some.inj h)
    exact ⟨hpc, rfl⟩
  · cases h

theorem takeResponse_cases {s t : Split} {result : Except IoError UrbResponse}
    (h : s.takeResponse = some (result, t)) :
    s.reader = .returned result ∧ t = { s with reader := .header } := by
  unfold takeResponse at h
  split at h
  · next hpc =>
    obtain ⟨rfl, rfl⟩ := Prod.mk.inj (Option.some.inj h)
    exact ⟨hpc, rfl⟩
  · cases h

theorem deliver_cases {s t : Split} {bytes : List UInt8} (h : s.deliver bytes = some t) :
    t = { s with arrived := s.arrived ++ bytes } := by
  unfold deliver at h
  split at h
  · exact (Option.some.inj h).symm
  · cases h

theorem close_cases {s t : Split} {e : IoError} (h : s.close e = some t) :
    t = { s with closed := some e } := by
  unfold close at h
  split at h
  · exact (Option.some.inj h).symm
  · cases h

/-- One constructor for each action of the halves and of their environment. -/
inductive SplitMove (s : Split) : Action → Split → Prop where
  | overflow {cmd} (pc : s.writer = .idle) (full : allocSeqnum s.build s.nextSeqnum = none) :
      SplitMove s (.call cmd) { s with writer := .panicked }
  | call {cmd seqnum next} (pc : s.writer = .idle)
      (alloc : allocSeqnum s.build s.nextSeqnum = some (seqnum, next)) :
      SplitMove s (.call cmd) { s with
        nextSeqnum := next, writer := .lockInsert seqnum cmd, issued := s.issued ++ [cmd] }
  | writer {fates t} (move : WriterMove s fates t) : SplitMove s (.writer fates) t
  | collect {result} (pc : s.writer = .returned result) :
      SplitMove s .collect { s with writer := .idle }
  | reader {t} (move : ReaderMove s t) : SplitMove s .reader t
  | takeResponse {result} (pc : s.reader = .returned result) :
      SplitMove s .takeResponse { s with reader := .header }
  | deliver {bytes} : SplitMove s (.deliver bytes) { s with arrived := s.arrived ++ bytes }
  | close {e} : SplitMove s (.close e) { s with closed := some e }

theorem step_cases {s t : Split} {a : Action} (h : s.step a = some t) : SplitMove s a t := by
  cases a with
  | call cmd =>
    obtain ⟨pc, ⟨full, rfl⟩ | ⟨seqnum, next, alloc, rfl⟩⟩ := call_cases h
    · exact .overflow pc full
    · exact .call pc alloc
  | writer fates => exact .writer (writerStep_cases h)
  | collect =>
    obtain ⟨⟨result, t⟩, collected, rfl⟩ := Option.map_eq_some_iff.mp h
    obtain ⟨pc, rfl⟩ := collect_cases collected
    exact .collect pc
  | reader => exact .reader (readerStep_cases h)
  | takeResponse =>
    obtain ⟨⟨result, t⟩, taken, rfl⟩ := Option.map_eq_some_iff.mp h
    obtain ⟨pc, rfl⟩ := takeResponse_cases taken
    exact .takeResponse pc
  | deliver bytes => exact deliver_cases h ▸ .deliver
  | close e => exact close_cases h ▸ .close

end Split

end UsbipDevirt
