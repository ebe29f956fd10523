import UsbipDevirt.Replies
import UsbipDevirt.WireOrder

/-!
# A conforming server

The halves of a connection against a server that answers the commands it has
received, each at most once. A command is received while its write is under
way or later, its answer may be on the wire before the write has returned, and
the bytes of the answers arrive in pieces of any size. Every answer finds the
entry of its command because the entry is made before the write.
-/

namespace UsbipDevirt

open Transition

/-! ## The server -/

/-- An answer to a command. That to a CMD_UNLINK is recorded with the target
of the command, which is not part of the message. -/
inductive Answer where
  | submit (header : RetSubmitHeader) (payload : List UInt8)
  | unlink (header : RetUnlinkHeader) (target : UInt32)
  deriving DecidableEq

namespace Answer

def message : Answer → Message
  | .submit header payload => .submit header payload
  | .unlink header _ => .unlink header

/-- The CMD_SUBMIT with number `k` is answered, or cancelled, by this. -/
def Settles (k : UInt32) : Answer → Prop
  | .submit header _ => header.seqnum = k
  | .unlink header target => header.status = -econnreset ∧ target = k

/-- The CMD_UNLINK with number `k` is answered by this. -/
def Acknowledges (k : UInt32) : Answer → Prop
  | .submit _ _ => False
  | .unlink header _ => header.seqnum = k

/-- No earlier answer is for this command. -/
def Open (earlier : List Answer) (k : UInt32) : Command → Prop
  | .submit _ => ∀ a ∈ earlier, ¬ a.Settles k
  | .unlink _ => ∀ a ∈ earlier, ¬ a.Acknowledges k

/-- How long the payload of a RET_SUBMIT is. -/
def payloadLength (header : RetSubmitHeader) (direction : Direction) : ℕ :=
  if direction = .in then header.actualLength.toNat else 0

/-- What the server may answer to the commands it has received, after these
other answers. -/
def Allowed (received : List (UInt32 × Command)) (earlier : List Answer) : Answer → Prop
  | .submit header payload =>
    header.command = usbipRetSubmit ∧ ∃ args, (header.seqnum, .submit args) ∈ received ∧
      Open earlier header.seqnum (.submit args) ∧
      payload.length = payloadLength header args.direction
  | .unlink header target =>
    header.command = usbipRetUnlink ∧ (header.seqnum, .unlink target) ∈ received ∧
      Open earlier header.seqnum (.unlink target) ∧
      (header.status = -econnreset → ∀ a ∈ earlier, ¬ a.Settles target)

theorem Allowed.mono {received more : List (UInt32 × Command)} {earlier : List Answer} {a : Answer}
    (sub : ∀ cmd ∈ received, cmd ∈ more) (h : a.Allowed received earlier) :
    a.Allowed more earlier := by
  cases a with
  | submit header payload =>
    obtain ⟨command, args, mem, rest⟩ := h
    exact ⟨command, args, sub _ mem, rest⟩
  | unlink header target =>
    obtain ⟨command, mem, rest⟩ := h
    exact ⟨command, sub _ mem, rest⟩

end Answer

def encodeAnswers (answers : List Answer) : List UInt8 := answers.flatMap fun a => a.message.encode

/-- The halves and the server. `received` are the commands the server has,
`answers` all that it has answered and `flight` the bytes of these that have
not reached the client. -/
structure Exchange where
  split : Split
  received : List (UInt32 × Command)
  answers : List Answer
  flight : List UInt8

namespace Exchange

def imported (build : Build) (input : Input) (output : Output) (busnum devnum : UInt32) :
    Exchange :=
  ⟨.ofConnection build (.imported input output busnum devnum), [], [], []⟩

inductive Action where
  | client (a : Split.Action)
  | receive (cmd : UInt32 × Command)
  | answer (a : Answer)
  | deliver (n : ℕ)

def step (x : Exchange) : Action → Option Exchange
  | .client a => (x.split.step a).map fun split => { x with split }
  | .receive cmd => some { x with received := x.received ++ [cmd] }
  | .answer a =>
    some { x with answers := x.answers ++ [a], flight := x.flight ++ a.message.encode }
  | .deliver n =>
    (x.split.deliver (x.flight.take n)).map fun split => { x with split, flight := x.flight.drop n }

end Exchange

/-- The command that is being written. -/
def WriterPc.writing : WriterPc → Option (UInt32 × Command)
  | .write seqnum cmd => some (seqnum, cmd)
  | _ => none

namespace Exchange

/-- The write that is under way succeeds. -/
def Succeeds (x : Exchange) (fates : List Fate) (cmd : UInt32 × Command) : Prop :=
  (cmd.2.write ⟨x.split.sent, fates⟩ cmd.1 x.split.devid).1 = .ok ()

/-- The server conforms, the bytes that arrive are those of its answers, and a
write that fails has not given it the complete command. -/
def Conforming (x : Exchange) : Action → Prop
  | .client (.deliver _) => False
  | .client (.writer fates) => ∀ cmd ∈ x.received, x.split.writer.writing = some cmd →
      x.Succeeds fates cmd
  | .client _ => True
  | .receive cmd => cmd ∈ x.split.written ∨ x.split.writer.writing = some cmd
  | .answer a => a.Allowed x.received x.answers
  | .deliver _ => True

/-- What the reader may rely on in one state. -/
structure RepliesFound (x : Exchange) : Prop where
  /-- The number of a RET_SUBMIT is known when it is looked up. -/
  known : ∀ header, x.split.reader = .removeSubmit header →
    ∃ args, (header.seqnum, .submit args) ∈ x.received ∧
      x.split.shared.pending.lookup header.seqnum = some args.direction
  /-- The only errors are those of the transport. -/
  errors : ∀ e, x.split.reader = .returned (.error e) → x.split.closed = some e
  noUnknown : ∀ k, x.split.closed ≠ some (unknownSeqnum k) →
    x.split.reader ≠ .returned (.error (unknownSeqnum k))
  direction : ∀ ret, x.split.reader = .returned (.ok (.submit ret)) →
    ∃ args, (ret.seqnum, .submit args) ∈ x.received ∧ ret.direction = args.direction
  /-- A number belongs to one command. -/
  numbers : ∀ k cmd cmd', (k, cmd) ∈ x.received → (k, cmd') ∈ x.received → cmd = cmd'
  unlinks : ∀ header, x.split.reader = .removeUnlink header →
    ∃ target, (header.seqnum, .unlink target) ∈ x.received ∧
      x.split.shared.unlinks.lookup header.seqnum = some target

/-! ## The invariant -/

/-- The entry that a command has in the maps. -/
def Entered (maps : SharedState) (k : UInt32) : Command → Prop
  | .submit args => maps.pending.lookup k = some args.direction
  | .unlink target => maps.unlinks.lookup k = some target

/-- Where the reader stands in the answers `todo` whose entries it has not
taken. The arguments are those parts of the state that this depends on. -/
inductive Reading (received : List (UInt32 × Command)) (closed : Option IoError) :
    ReaderPc → List UInt8 → List UInt8 → List Answer → Prop where
  | header {arrived flight todo} (stream : arrived ++ flight = encodeAnswers todo) :
      Reading received closed .header arrived flight todo
  | submit {reader arrived flight header payload todo}
      (pc : reader = .lockSubmit header ∨ reader = .removeSubmit header)
      (stream : arrived ++ flight = payload ++ encodeAnswers todo) :
      Reading received closed reader arrived flight (.submit header payload :: todo)
  | payload {arrived flight header args payload todo}
      (command : (header.seqnum, .submit args) ∈ received)
      (length : payload.length = Answer.payloadLength header args.direction)
      (stream : arrived ++ flight = payload ++ encodeAnswers todo) :
      Reading received closed (.payload header args.direction) arrived flight todo
  | unlink {reader arrived flight header target todo}
      (pc : reader = .lockUnlink header ∨ reader = .removeUnlink header)
      (stream : arrived ++ flight = encodeAnswers todo) :
      Reading received closed reader arrived flight (.unlink header target :: todo)
  | returned {arrived flight response todo}
      (matched : ∀ ret, response = .submit ret →
        ∃ args, (ret.seqnum, .submit args) ∈ received ∧ ret.direction = args.direction)
      (stream : arrived ++ flight = encodeAnswers todo) :
      Reading received closed (.returned (.ok response)) arrived flight todo
  | ended {reader arrived flight e todo}
      (pc : reader = .header ∨ reader = .returned (.error e)) (reason : closed = some e)
      (empty : arrived = []) : Reading received closed reader arrived flight todo

/-- The complete commands that the server has or is about to have. -/
def Sent (x : Exchange) (cmd : UInt32 × Command) : Prop :=
  cmd ∈ x.split.written ∨ x.split.writer.writing = some cmd

/-- `done` are the answers whose entries the reader has taken. -/
structure Inv (x : Exchange) (done todo : List Answer) : Prop where
  split : x.split.Inv
  sequenced : x.split.Sequenced
  received : ∀ cmd ∈ x.received, x.Sent cmd
  entered : ∀ k cmd, x.Sent (k, cmd) → Answer.Open done k cmd → Entered x.split.shared k cmd
  answers : x.answers = done ++ todo
  allowed : ∀ earlier a later, x.answers = earlier ++ a :: later → a.Allowed x.received earlier
  reading : Reading x.received x.split.closed x.split.reader x.split.arrived x.flight todo

/-! ### Reading the stream of answers -/

theorem Reading.mono {received more : List (UInt32 × Command)} {closed : Option IoError}
    {reader : ReaderPc} {arrived flight : List UInt8} {todo : List Answer}
    (sub : ∀ cmd ∈ received, cmd ∈ more) (h : Reading received closed reader arrived flight todo) :
    Reading more closed reader arrived flight todo := by
  cases h with
  | header stream => exact .header stream
  | submit pc stream => exact .submit pc stream
  | payload command length stream => exact .payload (sub _ command) length stream
  | unlink pc stream => exact .unlink pc stream
  | returned matched stream =>
    refine .returned (fun ret hret => ?_) stream
    obtain ⟨args, mem, same⟩ := matched ret hret
    exact ⟨args, sub _ mem, same⟩
  | ended pc reason empty => exact .ended pc reason empty

/-- One more answer on its way. -/
theorem Reading.answer {received : List (UInt32 × Command)} {closed : Option IoError}
    {reader : ReaderPc} {arrived flight : List UInt8} {todo : List Answer}
    (h : Reading received closed reader arrived flight todo) (a : Answer) :
    Reading received closed reader arrived (flight ++ a.message.encode) (todo ++ [a]) := by
  have longer : encodeAnswers (todo ++ [a]) = encodeAnswers todo ++ a.message.encode := by
    simp [encodeAnswers]
  have more {bytes : List UInt8} (stream : arrived ++ flight = bytes) :
      arrived ++ (flight ++ a.message.encode) = bytes ++ a.message.encode := by
    rw [← List.append_assoc, stream]
  cases h with
  | header stream => exact .header (by rw [more stream, longer])
  | @submit _ _ _ _ _ todo pc stream =>
    refine .submit pc ?_
    rw [more stream, List.append_assoc]
    simp [encodeAnswers]
  | payload command length stream =>
    refine .payload command length ?_
    rw [more stream, List.append_assoc, longer]
  | unlink pc stream =>
    refine .unlink pc ?_
    rw [more stream]
    simp [encodeAnswers]
  | returned matched stream => exact .returned matched (by rw [more stream, longer])
  | ended pc reason empty => exact .ended pc reason empty

/-- Bytes that arrive come from those in flight. -/
theorem Reading.deliver {received : List (UInt32 × Command)} {closed : Option IoError}
    {reader : ReaderPc} {arrived flight : List UInt8} {todo : List Answer}
    (h : Reading received closed reader arrived flight todo) (n : ℕ) (free : closed = none) :
    Reading received closed reader (arrived ++ flight.take n) (flight.drop n) todo := by
  have same : arrived ++ flight.take n ++ flight.drop n = arrived ++ flight := by
    rw [List.append_assoc, List.take_append_drop]
  cases h with
  | header stream => exact .header (same.trans stream)
  | submit pc stream => exact .submit pc (same.trans stream)
  | payload command length stream => exact .payload command length (same.trans stream)
  | unlink pc stream => exact .unlink pc (same.trans stream)
  | returned matched stream => exact .returned matched (same.trans stream)
  | ended pc reason empty => cases free.symm.trans reason

theorem Reading.close {received : List (UInt32 × Command)} {reader : ReaderPc}
    {arrived flight : List UInt8} {todo : List Answer}
    (h : Reading received none reader arrived flight todo) (e : IoError) :
    Reading received (some e) reader arrived flight todo := by
  cases h with
  | header stream => exact .header stream
  | submit pc stream => exact .submit pc stream
  | payload command length stream => exact .payload command length stream
  | unlink pc stream => exact .unlink pc stream
  | returned matched stream => exact .returned matched stream
  | ended _ reason => cases reason

/-- Before a block the stream is that of the answers to come, unless it has ended. -/
theorem Reading.of_header {received : List (UInt32 × Command)} {closed : Option IoError}
    {arrived flight : List UInt8} {todo : List Answer}
    (h : Reading received closed .header arrived flight todo) :
    arrived ++ flight = encodeAnswers todo ∨ arrived = [] := by
  cases h with
  | header stream => exact .inl stream
  | ended _ _ empty => exact .inr empty
  | submit pc | unlink pc => simp at pc

theorem Reading.of_submit {received : List (UInt32 × Command)} {closed : Option IoError}
    {reader : ReaderPc} {header : RetSubmitHeader} {arrived flight : List UInt8}
    {todo : List Answer} (h : Reading received closed reader arrived flight todo)
    (here : reader = .lockSubmit header ∨ reader = .removeSubmit header) :
    ∃ payload rest, todo = .submit header payload :: rest ∧
      arrived ++ flight = payload ++ encodeAnswers rest := by
  cases h with
  | @submit _ _ _ header' payload rest pc stream =>
    obtain rfl : header = header' := by
      rcases here with rfl | rfl <;> simpa using pc
    exact ⟨payload, rest, rfl, stream⟩
  | unlink pc | ended pc => rcases here with rfl | rfl <;> simp at pc
  | header | payload | returned => simp at here

theorem Reading.of_payload {received : List (UInt32 × Command)} {closed : Option IoError}
    {header : RetSubmitHeader} {direction : Direction} {arrived flight : List UInt8}
    {todo : List Answer}
    (h : Reading received closed (.payload header direction) arrived flight todo) :
    ∃ args payload, direction = args.direction ∧ (header.seqnum, .submit args) ∈ received ∧
      payload.length = Answer.payloadLength header args.direction ∧
      arrived ++ flight = payload ++ encodeAnswers todo := by
  cases h with
  | payload command length stream => exact ⟨_, _, rfl, command, length, stream⟩
  | submit pc | unlink pc | ended pc => simp at pc

theorem Reading.of_unlink {received : List (UInt32 × Command)} {closed : Option IoError}
    {reader : ReaderPc} {header : RetUnlinkHeader} {arrived flight : List UInt8}
    {todo : List Answer} (h : Reading received closed reader arrived flight todo)
    (here : reader = .lockUnlink header ∨ reader = .removeUnlink header) :
    ∃ target rest, todo = .unlink header target :: rest ∧
      arrived ++ flight = encodeAnswers rest := by
  cases h with
  | @unlink _ _ _ header' target rest pc stream =>
    obtain rfl : header = header' := by
      rcases here with rfl | rfl <;> simpa using pc
    exact ⟨target, rest, rfl, stream⟩
  | submit pc | ended pc => rcases here with rfl | rfl <;> simp at pc
  | header | payload | returned => simp at here

theorem Reading.of_returned {received : List (UInt32 × Command)} {closed : Option IoError}
    {response : UrbResponse} {arrived flight : List UInt8} {todo : List Answer}
    (h : Reading received closed (.returned (.ok response)) arrived flight todo) :
    (∀ ret, response = .submit ret →
      ∃ args, (ret.seqnum, .submit args) ∈ received ∧ ret.direction = args.direction) ∧
    arrived ++ flight = encodeAnswers todo := by
  cases h with
  | returned matched stream => exact ⟨matched, stream⟩
  | submit pc | unlink pc | ended pc => simp at pc

/-- An error comes from the end of the stream. -/
theorem Reading.of_error {received : List (UInt32 × Command)} {closed : Option IoError}
    {e : IoError} {arrived flight : List UInt8} {todo : List Answer}
    (h : Reading received closed (.returned (.error e)) arrived flight todo) :
    closed = some e ∧ arrived = [] := by
  cases h with
  | ended pc reason empty =>
    obtain rfl : e = _ := by simpa using pc
    exact ⟨reason, empty⟩
  | submit pc | unlink pc => simp at pc

/-- A block of 48 bytes at the front of the stream is the header of the next answer. -/
theorem next_answer {arrived flight : List UInt8} {todo : List Answer}
    (stream : arrived ++ flight = encodeAnswers todo) (enough : 48 ≤ arrived.length)
    {received : List (UInt32 × Command)} {earlier : List Answer}
    (allowed : ∀ a rest, todo = a :: rest → a.Allowed received earlier) :
    (∃ header payload rest, todo = .submit header payload :: rest ∧
      parseHeader (arrived.take 48) = .retSubmit header ∧
      arrived.drop 48 ++ flight = payload ++ encodeAnswers rest) ∨
    ∃ header target rest, todo = .unlink header target :: rest ∧
      parseHeader (arrived.take 48) = .retUnlink header ∧
      arrived.drop 48 ++ flight = encodeAnswers rest := by
  have width : (arrived.take 48).length = 48 := List.length_take_of_le enough
  have block : arrived.take 48 = (arrived ++ flight).take 48 :=
    (List.take_append_of_le_length enough).symm
  have behind : arrived.drop 48 ++ flight = (arrived ++ flight).drop 48 :=
    (List.drop_append_of_le_length enough).symm
  rw [stream] at block behind
  cases todo with
  | nil => simp [block, encodeAnswers] at width
  | cons a rest =>
    cases a with
    | submit header payload =>
      obtain ⟨command, _⟩ := allowed _ _ rfl
      have length := RetSubmitHeader.format.length_put header
      rw [RetSubmitHeader.format_width] at length
      have all : encodeAnswers (.submit header payload :: rest) =
          RetSubmitHeader.format.put header ++ (payload ++ encodeAnswers rest) := by
        simp [encodeAnswers, Answer.message, Message.encode]
      rw [all, List.take_left' length] at block
      rw [all, List.drop_left' length] at behind
      exact .inl ⟨header, payload, rest, rfl,
        (parseHeader_retSubmit_iff width header).mpr ⟨command, block⟩, behind⟩
    | unlink header target =>
      obtain ⟨command, _⟩ := allowed _ _ rfl
      have length := RetUnlinkHeader.format.length_put header
      rw [RetUnlinkHeader.format_width] at length
      have all : encodeAnswers (.unlink header target :: rest) =
          RetUnlinkHeader.format.put header ++ encodeAnswers rest := by
        simp [encodeAnswers, Answer.message, Message.encode]
      rw [all, List.take_left' length] at block
      rw [all, List.drop_left' length] at behind
      exact .inr ⟨header, target, rest, rfl,
        (parseHeader_retUnlink_iff width header).mpr ⟨command, block⟩, behind⟩

/-! ### The writer -/

theorem Entered.register {maps : SharedState} {k k' : UInt32} {cmd cmd' : Command} (ne : k' ≠ k)
    (h : Entered maps k' cmd') : Entered (maps.register k cmd) k' cmd' := by
  cases cmd <;> cases cmd' <;> simpa [Entered, SharedState.register, ne] using h

theorem entered_register (maps : SharedState) (k : UInt32) (cmd : Command) :
    Entered (maps.register k cmd) k cmd := by
  cases cmd <;> simp [Entered, SharedState.register]

theorem Entered.unregister {maps : SharedState} {k k' : UInt32} {cmd cmd' : Command} (ne : k' ≠ k)
    (h : Entered maps k' cmd') : Entered (maps.unregister k cmd) k' cmd' := by
  cases cmd <;> cases cmd' <;> simpa [Entered, SharedState.unregister, ne] using h

variable {x : Exchange} {done todo : List Answer}

/-- The sending function moves without a write: it allocates, takes the mutex,
drops an entry or returns. -/
theorem Inv.unwriting (h : x.Inv done todo) (idle : x.split.writer.writing = none)
    {next : UInt32} {shared : SharedState} {lock : Option Half} {writer : WriterPc}
    {issued : List Command}
    (split : Split.Inv { x.split with nextSeqnum := next, shared, lock, writer, issued })
    (sequenced : Split.Sequenced { x.split with nextSeqnum := next, shared, lock, writer, issued })
    (idle' : writer.writing = none)
    (kept : ∀ k cmd, (k, cmd) ∈ x.split.written → Entered x.split.shared k cmd →
      Entered shared k cmd) :
    Inv { x with split := { x.split with nextSeqnum := next, shared, lock, writer, issued } }
      done todo := by
  refine { h with split, sequenced, received := ?_, entered := ?_ }
  · intro cmd mem
    rcases h.received cmd mem with written | writing
    · exact .inl written
    · cases idle.symm.trans writing
  · rintro k cmd (written | writing) isOpen
    · exact kept k cmd written (h.entered k cmd (.inl written) isOpen)
    · cases idle'.symm.trans writing

/-- What was written before has another number. -/
theorem Inv.ne_serving (h : x.Inv done todo) {k k' : UInt32} {cmd cmd' : Command}
    (serving : x.split.writer.serving = some (k, cmd)) (mem : (k', cmd') ∈ x.split.written) :
    k' ≠ k := UInt32.ne_of_lt (h.sequenced.serving k cmd serving (k', cmd') mem)

theorem Inv.writerStep {fates : List Fate} {t : Split} (h : x.Inv done todo)
    (succeeds : ∀ cmd ∈ x.received, x.split.writer.writing = some cmd → x.Succeeds fates cmd)
    (move : x.split.writerStep fates = some t) : Inv { x with split := t } done todo := by
  have split := h.split.writerStep move
  have sequenced := h.sequenced.writerStep h.split move
  cases Split.writerStep_cases move with
  | lockInsert pc | lockRemove pc =>
    exact h.unwriting (by rw [pc]; rfl) split sequenced rfl (fun _ _ _ => id)
  | @insert seqnum cmd pc =>
    have here : x.split.writer.serving = some (seqnum, cmd) := by rw [pc]; rfl
    refine { h with split, sequenced, received := ?_, entered := ?_ }
    · intro cmd mem
      rcases h.received cmd mem with written | writing
      · exact .inl written
      · simp [pc, WriterPc.writing] at writing
    · rintro k cmd' (written | writing) isOpen
      · exact (h.entered k cmd' (.inl written) isOpen).register (h.ne_serving here written)
      · obtain ⟨rfl, rfl⟩ := Prod.mk.inj (Option.some.inj writing)
        exact entered_register ..
  | @written seqnum cmd out pc ok =>
    have writing : x.split.writer.writing = some (seqnum, cmd) := by rw [pc]; rfl
    have sent : ∀ c, c ∈ x.split.written ++ [(seqnum, cmd)] ↔ x.Sent c := by
      intro c
      simp [Sent, writing, eq_comm]
    refine { h with split, sequenced, received := ?_, entered := ?_ }
    · exact fun c mem => .inl ((sent c).mpr (h.received c mem))
    · rintro k cmd' (written | writing) isOpen
      · exact h.entered k cmd' ((sent _).mp written) isOpen
      · cases writing
  | @failed seqnum cmd out e pc error =>
    have writing : x.split.writer.writing = some (seqnum, cmd) := by rw [pc]; rfl
    have unsent : (seqnum, cmd) ∉ x.received := by
      intro mem
      have := succeeds _ mem writing
      simp [Succeeds, error] at this
    refine { h with split, sequenced, received := ?_, entered := ?_ }
    · intro c mem
      rcases h.received c mem with written | same
      · exact .inl written
      · obtain rfl := Option.some.inj (writing.symm.trans same)
        exact absurd mem unsent
    · rintro k cmd' (written | writing) isOpen
      · exact h.entered k cmd' (.inl written) isOpen
      · cases writing
  | @remove seqnum cmd e pc =>
    have here : x.split.writer.serving = some (seqnum, cmd) := by rw [pc]; rfl
    refine h.unwriting (by rw [pc]; rfl) split sequenced rfl ?_
    exact fun k cmd' mem entered => entered.unregister (h.ne_serving here mem)

theorem Inv.call {cmd : Command} {t : Split} (h : x.Inv done todo)
    (move : x.split.call cmd = some t) (bound : t.issued.length < 2 ^ 32) :
    Inv { x with split := t } done todo := by
  have split := h.split.call move (Nat.le_of_lt bound)
  have sequenced : t.Sequenced := h.sequenced.step (a := .call cmd) h.split move bound
  obtain ⟨pc, ⟨_, rfl⟩ | ⟨seqnum, next, alloc, rfl⟩⟩ := Split.call_cases move
  · exact h.unwriting (by rw [pc]; rfl) split sequenced rfl (fun _ _ _ => id)
  · exact h.unwriting (by rw [pc]; rfl) split sequenced rfl (fun _ _ _ => id)

/-! ### The reader -/

/-- The next answer is one the server may give after those that are done. -/
theorem Inv.next_allowed (h : x.Inv done todo) {a : Answer} {rest : List Answer}
    (todo_eq : todo = a :: rest) : a.Allowed x.received done :=
  h.allowed done a rest (by rw [h.answers, todo_eq])

/-- The entry of a CMD_SUBMIT is there when its answer is the next. -/
theorem Inv.pending_entry {header : RetSubmitHeader} {payload : List UInt8} {rest : List Answer}
    (h : x.Inv done (.submit header payload :: rest)) :
    ∃ args, (header.seqnum, .submit args) ∈ x.received ∧
      payload.length = Answer.payloadLength header args.direction ∧
      x.split.shared.pending.lookup header.seqnum = some args.direction := by
  obtain ⟨_, args, mem, isOpen, length⟩ := h.next_allowed rfl
  exact ⟨args, mem, length, h.entered _ _ (h.received _ mem) isOpen⟩

/-- The same for a CMD_UNLINK. -/
theorem Inv.unlink_entry {header : RetUnlinkHeader} {target : UInt32} {rest : List Answer}
    (h : x.Inv done (.unlink header target :: rest)) :
    (header.seqnum, .unlink target) ∈ x.received ∧
      x.split.shared.unlinks.lookup header.seqnum = some target := by
  obtain ⟨_, mem, isOpen, _⟩ := h.next_allowed rfl
  exact ⟨mem, h.entered _ _ (h.received _ mem) isOpen⟩

/-- A reader that takes no entry only moves on in the stream. -/
theorem Inv.reads (h : x.Inv done todo) {arrived : List UInt8} {lock : Option Half}
    {reader : ReaderPc} {decoded : List (RetSubmitHeader × RetSubmit)}
    (split : Split.Inv { x.split with arrived, lock, reader, decoded })
    (reading : Reading x.received x.split.closed reader arrived x.flight todo) :
    Inv { x with split := { x.split with arrived, lock, reader, decoded } } done todo :=
  { h with split, sequenced := { h.sequenced with }, reading }

/-- A reader that takes the entries of the next answer. -/
theorem Inv.takes {a : Answer} {rest : List Answer} (h : x.Inv done (a :: rest))
    {shared : SharedState} {lock : Option Half} {reader : ReaderPc}
    (split : Split.Inv { x.split with shared, lock, reader })
    (kept : ∀ k cmd, Answer.Open (done ++ [a]) k cmd → Entered x.split.shared k cmd →
      Entered shared k cmd)
    (reading : Reading x.received x.split.closed reader x.split.arrived x.flight rest) :
    Inv { x with split := { x.split with shared, lock, reader } } (done ++ [a]) rest := by
  refine { h with split, sequenced := { h.sequenced with }, reading, entered := ?_, answers := ?_ }
  · intro k cmd sent isOpen
    refine kept k cmd isOpen (h.entered k cmd sent ?_)
    cases cmd with
    | submit args => exact fun a mem => isOpen a (List.mem_append_left _ mem)
    | unlink target => exact fun a mem => isOpen a (List.mem_append_left _ mem)
  · rw [h.answers, List.append_assoc, List.singleton_append]

/-- Entries of other commands survive the removal of the one that is answered. -/
theorem Entered.erase_pending {maps : SharedState} {k : UInt32} {cmd : Command} {j : UInt32}
    (other : ∀ args, cmd = .submit args → k ≠ j) (h : Entered maps k cmd) :
    Entered { maps with pending := maps.pending.erase j } k cmd := by
  cases cmd with
  | submit args =>
    have ne := other args rfl
    simpa [Entered, ne] using h
  | unlink target => exact h

theorem Entered.applyUnlink {maps : SharedState} {k : UInt32} {cmd : Command}
    {header : RetUnlinkHeader} {target : UInt32} {earlier : List Answer}
    (entry : maps.unlinks.lookup header.seqnum = some target)
    (isOpen : Answer.Open (earlier ++ [.unlink header target]) k cmd) (h : Entered maps k cmd) :
    Entered (maps.applyUnlink header) k cmd := by
  simp only [SharedState.applyUnlink, entry]
  cases cmd with
  | submit args =>
    have kept := isOpen (.unlink header target) (by simp)
    split
    · next cancelled =>
      have ne : k ≠ target := fun same => kept ⟨cancelled, same.symm⟩
      simpa [Entered, ne] using h
    · exact h
  | unlink target' =>
    have ne : k ≠ header.seqnum := fun same => isOpen (.unlink header target) (by simp) same.symm
    split <;> simpa [Entered, ne] using h

/-- A block of 48 bytes that has arrived is the header of the next answer. -/
theorem Inv.next_header (h : x.Inv done todo) (pc : x.split.reader = .header)
    (enough : 48 ≤ x.split.arrived.length) :
    (∃ header payload rest, todo = .submit header payload :: rest ∧
      parseHeader (x.split.arrived.take 48) = .retSubmit header ∧
      x.split.arrived.drop 48 ++ x.flight = payload ++ encodeAnswers rest) ∨
    ∃ header target rest, todo = .unlink header target :: rest ∧
      parseHeader (x.split.arrived.take 48) = .retUnlink header ∧
      x.split.arrived.drop 48 ++ x.flight = encodeAnswers rest := by
  have reading := h.reading
  rw [pc] at reading
  rcases reading.of_header with stream | empty
  · exact next_answer stream enough fun _ _ => h.next_allowed
  · simp [empty] at enough

theorem Inv.readerStep {t : Split} (h : x.Inv done todo) (move : x.split.readerStep = some t) :
    ∃ done todo, Inv { x with split := t } done todo := by
  have split := h.split.readerStep move
  have reading := h.reading
  cases Split.readerStep_cases move with
  | @submitHeader header pc enough parsed =>
    rcases h.next_header pc enough with
      ⟨_, payload, rest, rfl, parsed', behind⟩ | ⟨_, _, _, _, parsed', _⟩
    · obtain rfl := ResponseHeader.retSubmit.inj (parsed.symm.trans parsed')
      exact ⟨done, _, h.reads split (.submit (.inl rfl) behind)⟩
    · cases parsed.symm.trans parsed'
  | @unlinkHeader header pc enough parsed =>
    rcases h.next_header pc enough with
      ⟨_, _, _, _, parsed', _⟩ | ⟨_, target, rest, rfl, parsed', behind⟩
    · cases parsed.symm.trans parsed'
    · obtain rfl := ResponseHeader.retUnlink.inj (parsed.symm.trans parsed')
      exact ⟨done, _, h.reads split (.unlink (.inl rfl) behind)⟩
  | @unknownCommand command pc enough parsed =>
    rcases h.next_header pc enough with ⟨_, _, _, _, parsed', _⟩ | ⟨_, _, _, _, parsed', _⟩
    · cases parsed.symm.trans parsed'
    · cases parsed.symm.trans parsed'
  | ended pc closed => exact ⟨done, todo, h.reads split (.ended (.inr rfl) closed rfl)⟩
  | lockSubmit pc free =>
    obtain ⟨payload, rest, rfl, stream⟩ := reading.of_submit (.inl pc)
    exact ⟨done, _, h.reads split (.submit (.inr rfl) stream)⟩
  | @unknownSeqnum header pc absent =>
    obtain ⟨payload, rest, rfl, stream⟩ := reading.of_submit (.inr pc)
    obtain ⟨args, _, _, present⟩ := h.pending_entry
    cases absent.symm.trans present
  | @removeSubmit header direction pc present =>
    obtain ⟨payload, rest, rfl, stream⟩ := reading.of_submit (.inr pc)
    obtain ⟨args, mem, length, present'⟩ := h.pending_entry
    obtain rfl := Option.some.inj (present'.symm.trans present)
    refine ⟨_, rest, h.takes split ?_ (.payload mem length stream)⟩
    intro k cmd isOpen entered
    refine entered.erase_pending ?_
    rintro args' rfl same
    exact isOpen (.submit header payload) (by simp) same.symm
  | @payload header direction n pc amount enough =>
    rw [pc] at reading
    obtain ⟨args, payload, rfl, mem, length, stream⟩ := reading.of_payload
    obtain rfl : n = payload.length := amount.trans length.symm
    have behind : x.split.arrived.drop payload.length ++ x.flight = encodeAnswers todo := by
      rw [← List.drop_append_of_le_length enough, stream, List.drop_left]
    refine ⟨done, todo, h.reads split (.returned ?_ behind)⟩
    rintro ret ⟨⟩
    exact ⟨args, mem, rfl⟩
  | lockUnlink pc free =>
    obtain ⟨target, rest, rfl, stream⟩ := reading.of_unlink (.inl pc)
    exact ⟨done, _, h.reads split (.unlink (.inr rfl) stream)⟩
  | @removeUnlink header pc =>
    obtain ⟨target, rest, rfl, stream⟩ := reading.of_unlink (.inr pc)
    obtain ⟨_, entry⟩ := h.unlink_entry
    refine ⟨_, rest, h.takes split ?_ (.returned (by rintro _ ⟨⟩) stream)⟩
    exact fun k cmd isOpen entered => entered.applyUnlink entry isOpen

/-! ### The server -/

theorem Inv.receive (h : x.Inv done todo) {cmd : UInt32 × Command} (sent : x.Sent cmd) :
    Inv { x with received := x.received ++ [cmd] } done todo := by
  have more : ∀ c ∈ x.received, c ∈ x.received ++ [cmd] := fun c mem => List.mem_append_left _ mem
  refine { h with received := ?_, allowed := ?_, reading := h.reading.mono more }
  · intro c mem
    rcases List.mem_append.mp mem with mem | mem
    · exact h.received c mem
    · obtain rfl := List.mem_singleton.mp mem
      exact sent
  · exact fun earlier a later all => (h.allowed earlier a later all).mono more

theorem Inv.answer (h : x.Inv done todo) {a : Answer} (allowed : a.Allowed x.received x.answers) :
    Inv { x with answers := x.answers ++ [a], flight := x.flight ++ a.message.encode }
      done (todo ++ [a]) := by
  refine { h with answers := ?_, allowed := ?_, reading := h.reading.answer a }
  · rw [h.answers, List.append_assoc]
  · intro earlier b later all
    rcases List.eq_nil_or_concat later with rfl | ⟨later, last, rfl⟩
    · obtain ⟨rfl, same⟩ := List.append_inj' all rfl
      obtain rfl := List.singleton_inj.mp same
      exact allowed
    · rw [List.concat_eq_append, ← List.cons_append, ← List.append_assoc] at all
      exact h.allowed earlier b later (List.append_inj' all rfl).1

theorem Inv.deliver {n : ℕ} {t : Split} (h : x.Inv done todo)
    (move : x.split.deliver (x.flight.take n) = some t) (split : t.Inv) :
    Inv { x with split := t, flight := x.flight.drop n } done todo := by
  unfold Split.deliver at move
  split at move
  · next free =>
    obtain rfl := Option.some.inj move
    exact { h with
      split, sequenced := { h.sequenced with }, reading := h.reading.deliver n free }
  · cases move

theorem Inv.close {e : IoError} {t : Split} (h : x.Inv done todo)
    (move : x.split.close e = some t) (split : t.Inv) : Inv { x with split := t } done todo := by
  unfold Split.close at move
  split at move
  · next free =>
    obtain rfl := Option.some.inj move
    have reading := h.reading
    rw [free] at reading
    exact { h with split, sequenced := { h.sequenced with }, reading := reading.close e }
  · cases move

theorem Inv.step {x' : Exchange} {a : Action} (h : x.Inv done todo) (guard : x.Conforming a)
    (move : x.step a = some x') (bound : x'.split.issued.length < 2 ^ 32) :
    ∃ done todo, x'.Inv done todo := by
  cases a with
  | receive cmd =>
    obtain rfl := Option.some.inj move
    exact ⟨done, todo, h.receive guard⟩
  | answer a =>
    obtain rfl := Option.some.inj move
    exact ⟨done, _, h.answer guard⟩
  | deliver n =>
    obtain ⟨t, delivered, rfl⟩ := Option.map_eq_some_iff.mp move
    have split : t.Inv := h.split.step (a := .deliver _) delivered (Nat.le_of_lt bound)
    exact ⟨done, todo, h.deliver delivered split⟩
  | client a =>
    obtain ⟨t, stepped, rfl⟩ := Option.map_eq_some_iff.mp move
    have split : t.Inv := h.split.step stepped (Nat.le_of_lt bound)
    have sequenced : t.Sequenced := h.sequenced.step h.split stepped bound
    cases Split.step_cases stepped with
    | overflow | call => exact ⟨done, todo, h.call stepped bound⟩
    | writer => exact ⟨done, todo, h.writerStep guard stepped⟩
    | collect pc =>
      exact ⟨done, todo, h.unwriting (by rw [pc]; rfl) split sequenced rfl (fun _ _ _ => id)⟩
    | reader => exact h.readerStep stepped
    | @takeResponse result pc =>
      have reading := h.reading
      rw [pc] at reading
      refine ⟨done, todo, h.reads split ?_⟩
      cases result with
      | ok response => exact .header reading.of_returned.2
      | error e =>
        obtain ⟨reason, empty⟩ := reading.of_error
        exact .ended (.inl rfl) reason empty
    | deliver => exact guard.elim
    | close => exact ⟨done, todo, h.close stepped split⟩

theorem Inv.initial (build : Build) (input : Input) (output : Output) (busnum devnum : UInt32) :
    Inv (imported build input output busnum devnum) [] [] where
  split := .initial ..
  sequenced := .initial ..
  received := by simp [imported]
  entered := by simp [imported, Split.ofConnection, Sent, WriterPc.writing]
  answers := rfl
  allowed := by simp [imported]
  reading := .header rfl

theorem issued_length_le {x x' : Exchange} {a : Action} (move : x.step a = some x') :
    x.split.issued.length ≤ x'.split.issued.length := by
  have client {a : Split.Action} {t : Split} (stepped : x.split.step a = some t) :
      x.split.issued.length ≤ t.issued.length := by
    rcases Split.step_issued stepped with same | ⟨_, _, more⟩
    · rw [same]
    · simp [more]
  cases a with
  | receive cmd =>
    obtain rfl := Option.some.inj move
    exact Nat.le_refl _
  | answer a =>
    obtain rfl := Option.some.inj move
    exact Nat.le_refl _
  | deliver n =>
    obtain ⟨t, delivered, rfl⟩ := Option.map_eq_some_iff.mp move
    exact client (a := .deliver _) delivered
  | client a =>
    obtain ⟨t, stepped, rfl⟩ := Option.map_eq_some_iff.mp move
    exact client stepped

theorem Inv.of_run {build : Build} {input : Input} {output : Output} {busnum devnum : UInt32}
    (run : Reaches Exchange.step Conforming (imported build input output busnum devnum) x)
    (bound : x.split.issued.length < 2 ^ 32) : ∃ done todo, x.Inv done todo := by
  refine run.invariant_below (fun x : Exchange => ∃ done todo, x.Inv done todo)
    (fun x => x.split.issued.length) ⟨[], [], .initial ..⟩ (fun _ _ _ => issued_length_le) ?_ bound
  rintro x a x' ⟨done, todo, h⟩ guard move below
  exact h.step guard move below

/-! ## Every reply finds its command -/

theorem Inv.numbers (h : x.Inv done todo) (bound : x.split.issued.length ≤ 2 ^ 32) {k : UInt32}
    {cmd cmd' : Command} (mem : (k, cmd) ∈ x.received) (mem' : (k, cmd') ∈ x.received) :
    cmd = cmd' := by
  have issued {c : Command} (hc : (k, c) ∈ x.received) : IssuedAs x.split.issued k c := by
    rcases h.received _ hc with written | writing
    · exact h.sequenced.issued k c written
    · cases hpc : x.split.writer with
      | write seqnum cmd =>
        rw [hpc] at writing
        obtain ⟨rfl, rfl⟩ := Prod.mk.inj (Option.some.inj writing)
        obtain ⟨n, _, at_n, key⟩ := h.split.serving seqnum cmd (by rw [hpc]; rfl)
        exact ⟨n, at_n, key⟩
      | _ => simp [hpc, WriterPc.writing] at writing
  exact (issued mem).unique bound (issued mem')

theorem Inv.errors (h : x.Inv done todo) {e : IoError}
    (pc : x.split.reader = .returned (.error e)) : x.split.closed = some e := by
  have reading := h.reading
  rw [pc] at reading
  exact reading.of_error.1

theorem Inv.repliesFound (h : x.Inv done todo) (bound : x.split.issued.length ≤ 2 ^ 32) :
    x.RepliesFound where
  known header pc := by
    obtain ⟨payload, rest, rfl, _⟩ := h.reading.of_submit (.inr pc)
    obtain ⟨args, mem, _, present⟩ := h.pending_entry
    exact ⟨args, mem, present⟩
  errors _ pc := h.errors pc
  noUnknown k open' pc := open' (h.errors pc)
  direction ret pc := by
    have reading := h.reading
    rw [pc] at reading
    exact reading.of_returned.1 ret rfl
  numbers _ _ _ := h.numbers bound
  unlinks header pc := by
    obtain ⟨target, rest, rfl, _⟩ := h.reading.of_unlink (.inr pc)
    exact ⟨_, h.unlink_entry⟩

/-- Registration before the write: whatever the order in which the halves and
a conforming server move, no reply comes before the entry of its command. -/
theorem conforming_replies_found {build : Build} {input : Input} {output : Output}
    {busnum devnum : UInt32} {x : Exchange}
    (run : Reaches Exchange.step Conforming (imported build input output busnum devnum) x)
    (bound : x.split.issued.length < 2 ^ 32 - 1) : x.RepliesFound := by
  obtain ⟨done, todo, h⟩ := Inv.of_run run (by omega)
  exact h.repliesFound (by omega)

/-- A test for the steps of a run in which the server answers one CMD_SUBMIT
during its write. -/
def earlyAnswer (x : Exchange) : Action → Bool
  | .client (.call _) | .client .reader | .deliver _ => true
  | .client (.writer _) => x.received.isEmpty
  | .receive cmd => decide (x.split.writer.writing = some cmd)
  | .answer a => decide (x.received = [(1, .submit Bridge.bulkIn.args)] ∧ x.answers = [] ∧
      a = .submit Bridge.firstHeader [0xab, 0xcd])
  | _ => false

theorem conforming_of_earlyAnswer (x : Exchange) (a : Action) (ok : earlyAnswer x a = true) :
    x.Conforming a := by
  cases a with
  | client a =>
    cases a with
    | writer fates =>
      intro cmd mem
      rw [List.isEmpty_iff.mp ok] at mem
      cases mem
    | call | reader => trivial
    | _ => cases ok
  | receive cmd => exact .inr (of_decide_eq_true ok)
  | answer a =>
    obtain ⟨received, answers, rfl⟩ := of_decide_eq_true ok
    simp only [Conforming, received, answers]
    exact ⟨rfl, Bridge.bulkIn.args, by simp [Bridge.firstHeader], by simp [Answer.Open], rfl⟩
  | deliver n => trivial

/-- The reply is taken off the socket while the write has not returned. -/
def lookedUpEarly (x : Exchange) : Bool :=
  match x.split.writer, x.split.reader with
  | .write _ _, .removeSubmit _ => decide (x.split.issued.length < 2 ^ 32 - 1)
  | _, _ => false

theorem conforming_replies_found_early : ∃ x : Exchange, lookedUpEarly x = true ∧
    x.RepliesFound := by
  obtain ⟨x, run, found⟩ := Reaches.of_exec_any Exchange.step conforming_of_earlyAnswer
    (imported .release ⟨[], ⟨.unexpectedEof, ""⟩⟩ ⟨[], []⟩ 1 2)
    [.client (.call (.submit Bridge.bulkIn.args)), .client (.writer []), .client (.writer []),
      .receive (1, .submit Bridge.bulkIn.args), .answer (.submit Bridge.firstHeader [0xab, 0xcd]),
      .deliver 20, .deliver 29, .client .reader, .client .reader]
    lookedUpEarly (by decide +kernel)
  refine ⟨x, found, conforming_replies_found run ?_⟩
  unfold lookedUpEarly at found
  split at found
  · exact of_decide_eq_true found
  · cases found

end Exchange

end UsbipDevirt
