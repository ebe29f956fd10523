import UsbipDevirt.Conformance
import UsbipDevirt.EndpointData
import UsbipDevirt.InFlight
import UsbipDevirt.Quiescence

/-!
# The program and a conforming server

The whole program talks to a server that answers the commands it has received,
each at most once. The reader thread decodes these answers in order and with
their payloads. Where the program has come to rest and all answers have reached
it, they have reached their callers as well, unless one was looked up before its
caller had inserted its sender; and who still waits has not been answered.
-/

namespace UsbipDevirt

open Transition

namespace Exchange

/-! ## Decoded answers -/

/-- A RET_SUBMIT with its payload. -/
def part : Answer → Option (RetSubmitHeader × List UInt8)
  | .submit header payload => some (header, payload)
  | .unlink .. => none

/-- The RET_SUBMIT whose payload the reader is about to read, as it will be read. -/
def due (x : Exchange) : List (RetSubmitHeader × List UInt8) :=
  match x.split.reader with
  | .payload header direction =>
    [(header, (x.split.arrived ++ x.flight).take (Answer.payloadLength header direction))]
  | _ => []

/-- The RET_SUBMITs whose entries the reader has taken. -/
def parts (x : Exchange) : List (RetSubmitHeader × List UInt8) :=
  x.split.decoded.map (fun p => (p.1, p.2.data)) ++ x.due

/-- While the stream is open, they are those of the answers that are done, and
what is decoded is what the headers say. -/
structure Tracked (x : Exchange) (done : List Answer) : Prop where
  parts : x.split.closed = none → x.parts = done.filterMap part
  whole : ∀ header ret, (header, ret) ∈ x.split.decoded →
    ret = header.toRet ret.data ret.direction

variable {x : Exchange} {done todo : List Answer}

theorem Tracked.keep {x' : Exchange} (h : x.Tracked done)
    (closed : x'.split.closed = none → x.split.closed = none)
    (decoded : x'.split.decoded = x.split.decoded) (due : x'.due = x.due) : x'.Tracked done where
  parts isOpen := by
    rw [Exchange.parts, decoded, due]
    exact h.parts (closed isOpen)
  whole := by
    rw [decoded]
    exact h.whole

/-- More bytes behind those of the payload make no difference. -/
theorem Inv.due_append (h : x.Inv done todo) {header : RetSubmitHeader}
    {direction : Direction} (pc : x.split.reader = .payload header direction)
    (more : List UInt8) :
    (x.split.arrived ++ x.flight ++ more).take (Answer.payloadLength header direction) =
      (x.split.arrived ++ x.flight).take (Answer.payloadLength header direction) := by
  have reading := h.reading
  rw [pc] at reading
  obtain ⟨args, payload, rfl, _, length, stream⟩ := reading.of_payload
  apply List.take_append_of_le_length
  rw [stream, List.length_append]
  omega

/-- The reader goes on in the stream, and what it takes is the next answer. -/
theorem Inv.tracked_readerStep {t : Split} (h : x.Inv done todo) (tracked : x.Tracked done)
    (move : x.split.readerStep = some t) : ∃ done todo,
      Inv { x with split := t } done todo ∧ Tracked { x with split := t } done := by
  have split := h.split.readerStep move
  have reading := h.reading
  have quiet {s : Split} (closed : s.closed = x.split.closed)
      (decoded : s.decoded = x.split.decoded) (before : x.due = [])
      (after : due { x with split := s } = []) :
      Tracked { x with split := s } done :=
    tracked.keep (fun isOpen => closed ▸ isOpen) decoded (after.trans before.symm)
  cases Split.readerStep_cases move with
  | @submitHeader header pc enough parsed =>
    refine ⟨done, todo, ?_, quiet rfl rfl (by simp [due, pc]) rfl⟩
    rcases h.next_header pc enough with
      ⟨_, payload, rest, rfl, parsed', behind⟩ | ⟨_, _, _, _, parsed', _⟩
    · obtain rfl := ResponseHeader.retSubmit.inj (parsed.symm.trans parsed')
      exact h.reads split (.submit (.inl rfl) behind)
    · cases parsed.symm.trans parsed'
  | @unlinkHeader header pc enough parsed =>
    refine ⟨done, todo, ?_, quiet rfl rfl (by simp [due, pc]) rfl⟩
    rcases h.next_header pc enough with
      ⟨_, _, _, _, parsed', _⟩ | ⟨_, target, rest, rfl, parsed', behind⟩
    · cases parsed.symm.trans parsed'
    · obtain rfl := ResponseHeader.retUnlink.inj (parsed.symm.trans parsed')
      exact h.reads split (.unlink (.inl rfl) behind)
  | @unknownCommand command pc enough parsed =>
    rcases h.next_header pc enough with ⟨_, _, _, _, parsed', _⟩ | ⟨_, _, _, _, parsed', _⟩
    · cases parsed.symm.trans parsed'
    · cases parsed.symm.trans parsed'
  | @ended e pc closed =>
    refine ⟨done, todo, h.reads split (.ended (.inr rfl) closed rfl), fun isOpen => ?_,
      tracked.whole⟩
    cases closed.symm.trans isOpen
  | @lockSubmit header pc free =>
    refine ⟨done, todo, ?_, quiet rfl rfl (by simp [due, pc]) rfl⟩
    obtain ⟨payload, rest, rfl, stream⟩ := reading.of_submit (.inl pc)
    exact h.reads split (.submit (.inr rfl) stream)
  | @unknownSeqnum header pc absent =>
    obtain ⟨payload, rest, rfl, stream⟩ := reading.of_submit (.inr pc)
    obtain ⟨args, _, _, present⟩ := h.pending_entry
    cases absent.symm.trans present
  | @removeSubmit header direction pc present =>
    obtain ⟨payload, rest, rfl, stream⟩ := reading.of_submit (.inr pc)
    obtain ⟨args, mem, length, present'⟩ := h.pending_entry
    obtain rfl := Option.some.inj (present'.symm.trans present)
    refine ⟨_, rest, h.takes split ?_ (.payload mem length stream), fun isOpen => ?_,
      tracked.whole⟩
    · intro k cmd isOpen entered
      refine entered.erase_pending ?_
      rintro args' rfl same
      exact isOpen (.submit header payload) (by simp) same.symm
    · have before := tracked.parts isOpen
      have none : x.due = [] := by simp [due, pc]
      rw [parts, none, List.append_nil] at before
      rw [parts, List.filterMap_append, ← before]
      simp only [due, stream, ← length, List.take_left']
      rfl
  | @payload header direction n pc amount enough =>
    rw [pc] at reading
    obtain ⟨args, payload, rfl, mem, length, stream⟩ := reading.of_payload
    obtain rfl : n = payload.length := amount.trans length.symm
    have behind : x.split.arrived.drop payload.length ++ x.flight = encodeAnswers todo := by
      rw [← List.drop_append_of_le_length enough, stream, List.drop_left]
    have front : x.split.arrived.take payload.length = payload := by
      rw [← List.take_append_of_le_length enough, stream, List.take_left]
    refine ⟨done, todo, h.reads split (.returned ?_ behind), ?_⟩
    · rintro ret ⟨⟩
      exact ⟨args, mem, rfl⟩
    · constructor
      · intro isOpen
        rw [← tracked.parts isOpen]
        simp only [parts, due, pc, Split.returnSubmit, List.map_append, front, stream,
          ← length, List.take_left']
        simp [RetSubmitHeader.toRet]
      · intro header' ret mem
        rcases List.mem_append.mp mem with mem | mem
        · exact tracked.whole header' ret mem
        · obtain ⟨rfl, rfl⟩ := Prod.mk.inj (List.mem_singleton.mp mem)
          rfl
  | @lockUnlink header pc free =>
    refine ⟨done, todo, ?_, quiet rfl rfl (by simp [due, pc]) rfl⟩
    obtain ⟨target, rest, rfl, stream⟩ := reading.of_unlink (.inl pc)
    exact h.reads split (.unlink (.inr rfl) stream)
  | @removeUnlink header pc =>
    obtain ⟨target, rest, rfl, stream⟩ := reading.of_unlink (.inr pc)
    obtain ⟨_, entry⟩ := h.unlink_entry
    refine ⟨_, rest, h.takes split ?_ (.returned (by rintro _ ⟨⟩) stream), fun isOpen => ?_,
      tracked.whole⟩
    · exact fun k cmd isOpen entered => entered.applyUnlink entry isOpen
    · have before := tracked.parts isOpen
      have none : x.due = [] := by simp [due, pc]
      rw [parts, none, List.append_nil] at before
      rw [parts, List.filterMap_append, ← before]
      rfl

/-- The reader stands where it stood, before the same stream or a longer one. -/
theorem Inv.due_eq {x' : Exchange} (h : x.Inv done todo) {more : List UInt8}
    (reader : x'.split.reader = x.split.reader)
    (stream : x'.split.arrived ++ x'.flight = x.split.arrived ++ x.flight ++ more) :
    x'.due = x.due := by
  unfold due
  rw [reader]
  cases pc : x.split.reader with
  | payload header direction => simp only [stream, h.due_append pc more]
  | _ => rfl

theorem Inv.tracked_step {x' : Exchange} {a : Action} (h : x.Inv done todo)
    (tracked : x.Tracked done) (guard : x.Conforming a) (move : x.step a = some x')
    (bound : x'.split.issued.length < 2 ^ 32) :
    ∃ done todo, x'.Inv done todo ∧ x'.Tracked done := by
  have same {x' : Exchange} (more : List UInt8) (closed : x'.split.closed = x.split.closed)
      (decoded : x'.split.decoded = x.split.decoded) (reader : x'.split.reader = x.split.reader)
      (stream : x'.split.arrived ++ x'.flight = x.split.arrived ++ x.flight ++ more) :
      x'.Tracked done :=
    tracked.keep (fun isOpen => closed ▸ isOpen) decoded (h.due_eq reader stream)
  cases a with
  | receive cmd =>
    obtain rfl := Option.some.inj move
    exact ⟨done, todo, h.receive guard, same _ rfl rfl rfl (List.append_nil _).symm⟩
  | answer a =>
    obtain rfl := Option.some.inj move
    exact ⟨done, _, h.answer guard, same _ rfl rfl rfl (List.append_assoc ..).symm⟩
  | deliver n =>
    obtain ⟨t, delivered, rfl⟩ := Option.map_eq_some_iff.mp move
    have split : t.Inv := h.split.step (a := .deliver _) delivered (Nat.le_of_lt bound)
    refine ⟨done, todo, h.deliver delivered split, ?_⟩
    obtain rfl := Split.deliver_cases delivered
    refine same [] rfl rfl rfl ?_
    simp only [List.append_assoc, List.take_append_drop, List.append_nil]
  | client a =>
    obtain ⟨t, stepped, rfl⟩ := Option.map_eq_some_iff.mp move
    have split : t.Inv := h.split.step stepped (Nat.le_of_lt bound)
    have sequenced : t.Sequenced := h.sequenced.step h.split stepped bound
    have still {s : Split} (inv : Inv { x with split := s } done todo)
        (closed : s.closed = x.split.closed) (decoded : s.decoded = x.split.decoded)
        (reader : s.reader = x.split.reader) (arrived : s.arrived = x.split.arrived) :
        ∃ done todo, Inv { x with split := s } done todo ∧ Tracked { x with split := s } done :=
      ⟨done, todo, inv, same [] closed decoded reader (by simp [arrived])⟩
    cases Split.step_cases stepped with
    | overflow | call => exact still (h.call stepped bound) rfl rfl rfl rfl
    | writer move =>
      have inv := h.writerStep guard stepped
      cases move <;> exact still inv rfl rfl rfl rfl
    | collect pc =>
      have inv := h.unwriting (by rw [pc]; rfl) split sequenced rfl fun _ _ _ => id
      exact still inv rfl rfl rfl rfl
    | reader => exact h.tracked_readerStep tracked stepped
    | @takeResponse result pc =>
      have stands := h.reading
      rw [pc] at stands
      refine ⟨done, todo, h.reads split ?_, tracked.keep id rfl ?_⟩
      · cases result with
        | ok response => exact .header stands.of_returned.2
        | error e =>
          obtain ⟨reason, empty⟩ := stands.of_error
          exact .ended (.inl rfl) reason empty
      · simp [due, pc]
    | deliver => exact guard.elim
    | close =>
      refine ⟨done, todo, h.close stepped split, ?_, tracked.whole⟩
      rintro ⟨⟩

theorem tracked_of_run {build : Build} {input : Input} {output : Output} {busnum devnum : UInt32}
    (run : Reaches Exchange.step Conforming (imported build input output busnum devnum) x)
    (bound : x.split.issued.length < 2 ^ 32) :
    ∃ done todo, x.Inv done todo ∧ x.Tracked done := by
  refine run.invariant_below (fun x : Exchange => ∃ done todo, x.Inv done todo ∧ x.Tracked done)
    (fun x => x.split.issued.length) ⟨[], [], .initial .., fun _ => rfl, by rintro _ _ ⟨⟩⟩
    (fun _ _ _ => issued_length_le) ?_ bound
  rintro x a x' ⟨done, todo, h, tracked⟩ guard move below
  exact h.tracked_step tracked guard move below

theorem header_le_encode (a : Answer) : 48 ≤ a.message.encode.length := by
  cases a with
  | submit header payload =>
    have length := RetSubmitHeader.format.length_put header
    rw [RetSubmitHeader.format_width] at length
    simp [Answer.message, Message.encode, length]
  | unlink header target =>
    have length := RetUnlinkHeader.format.length_put header
    rw [RetUnlinkHeader.format_width] at length
    simp [Answer.message, Message.encode, length]

/-- Where the reader needs more bytes and there are none, it has decoded all answers. -/
theorem Inv.decoded_all (h : x.Inv done todo) (tracked : x.Tracked done)
    (isOpen : x.split.closed = none) (landed : x.flight = [])
    (position : x.split.reader = .header ∨
      ∃ header direction, x.split.reader = .payload header direction)
    (stuck : x.split.readerStep = none) :
    x.split.decoded.map (fun p => (p.1, p.2.data)) = x.answers.filterMap part := by
  have stands := h.reading
  rw [isOpen, landed] at stands
  rcases position with pc | ⟨header, direction, pc⟩
  · rw [pc] at stands
    have stream : x.split.arrived = encodeAnswers todo := by
      cases stands with
      | header stream => simpa using stream
      | ended _ reason => cases reason
      | submit pc | unlink pc => simp at pc
    have short : ¬ 48 ≤ x.split.arrived.length := by
      intro enough
      simp only [Split.readerStep, pc, enough, if_true] at stuck
      split at stuck <;> cases stuck
    have none : todo = [] := by
      cases todo with
      | nil => rfl
      | cons a rest =>
        have long := header_le_encode a
        simp only [stream, encodeAnswers, List.flatMap_cons, List.length_append] at short
        omega
    have all := tracked.parts isOpen
    have nothing : x.due = [] := by simp [due, pc]
    rw [parts, nothing, List.append_nil] at all
    rw [all, h.answers, none, List.append_nil]
  · exfalso
    rw [pc] at stands
    obtain ⟨args, payload, rfl, _, length, stream⟩ := stands.of_payload
    have enough : Answer.payloadLength header args.direction ≤ x.split.arrived.length := by
      rw [← length, ← List.append_nil x.split.arrived, stream, List.length_append]
      omega
    simp only [Split.readerStep, pc] at stuck
    split at stuck
    · next amount =>
      rw [Answer.payloadLength, if_pos amount.1] at enough
      simp [enough] at stuck
    · cases stuck

end Exchange

/-! ## Whose commands are on the wire -/

namespace Bridge

/-- A command on the wire is that of a call whose write has succeeded, as the call
knows or is about to see. -/
def Attributed (b : Bridge) : Prop := ∀ k cmd, (k, cmd) ∈ b.split.written →
  b.split.writer = .returned (.ok k) ∨
    ∃ c, (b.calls c).seqnum = some k ∧ (b.calls c).wrote = true

namespace Attributed

variable {b b' : Bridge} {a : Action}

/-- No step takes the record of its write from a call. -/
theorem kept (inv : b.Inv) (step : b.step a = some b') {c : CallId} {k : UInt32}
    (number : (b.calls c).seqnum = some k) (wrote : (b.calls c).wrote = true) :
    (b'.calls c).seqnum = some k ∧ (b'.calls c).wrote = true := by
  have progress := inv.progress c
  cases step_numberMove step c with
  | same _ seqnum' wrote' => exact ⟨seqnum'.trans number, wrote'.trans wrote⟩
  | started idle =>
    obtain ⟨none, _⟩ := progress.of_unnumbered (by rw [idle]; rfl)
    cases none.symm.trans number
  | allocated pc =>
    obtain ⟨none, _⟩ := progress.of_unnumbered (by rw [pc]; rfl)
    cases none.symm.trans number
  | written pc => cases (progress.of_sending pc).2.symm.trans wrote

theorem step (h : b.Attributed) (inv : b.Inv) (step : b.step a = some b') : b'.Attributed := by
  have keep (written : b'.split.written = b.split.written)
      (collected : ∀ k, b.split.writer = .returned (.ok k) →
        b'.split.writer = .returned (.ok k) ∨
          ∃ c, (b'.calls c).seqnum = some k ∧ (b'.calls c).wrote = true) : b'.Attributed := by
    intro k cmd mem
    rw [written] at mem
    rcases h k cmd mem with result | ⟨c, number, wrote⟩
    · exact collected k result
    · exact .inr ⟨c, kept inv step number wrote⟩
  have elsewhere (written : b'.split.written = b.split.written)
      (writer : b'.split.writer = b.split.writer) : b'.Attributed :=
    keep written fun k result => .inl (writer.trans result)
  cases step_cases step with
  | start | drain => exact elsewhere rfl rfl
  | @call c fates _ move =>
    cases move with
    | allocated pc call | panicked pc call =>
      obtain ⟨idle, ⟨_, rfl⟩ | ⟨_, _, _, rfl⟩⟩ := Split.call_cases call
      · exact keep rfl fun k result => by cases idle.symm.trans result
      · exact keep rfl fun k result => by cases idle.symm.trans result
    | writing pc writes =>
      cases Split.writerStep_cases writes with
      | lockInsert here | insert here | failed here | lockRemove here | remove here =>
        exact keep rfl fun k result => by cases here.symm.trans result
      | @written seqnum cmd out here =>
        intro k cmd' mem
        rcases List.mem_append.mp mem with mem | mem
        · rcases h k cmd' mem with result | ⟨d, number, wrote⟩
          · cases here.symm.trans result
          · exact .inr ⟨d, kept inv step number wrote⟩
        · obtain ⟨rfl, rfl⟩ := Prod.mk.inj (List.mem_singleton.mp mem)
          exact .inl rfl
    | @written split seqnum pc collect =>
      obtain ⟨returned, rfl⟩ := Split.collect_cases collect
      refine keep rfl fun k result => .inr ⟨c, ?_, ?_⟩
      · cases returned.symm.trans result
        obtain ⟨n, issued, rfl⟩ := inv.split.result seqnum returned
        obtain ⟨n', issued', number⟩ := inv.sending c pc
        obtain rfl : n = n' := by omega
        exact (congrArg Call.seqnum (setCall_calls_self ..)).trans number
      · exact congrArg Call.wrote (setCall_calls_self ..)
    | failed pc collect =>
      obtain ⟨returned, rfl⟩ := Split.collect_cases collect
      exact keep rfl fun k result => by cases returned.symm.trans result
    | _ => exact elsewhere rfl rfl
  | reader move =>
    cases move with
    | reading pc read =>
      refine elsewhere ?_ (Split.readerStep_cases read).writer_eq.1
      cases Split.readerStep_cases read <;> rfl
    | submit pc take | unlink pc take | error pc take =>
      obtain ⟨_, rfl⟩ := Split.takeResponse_cases take
      exact elsewhere rfl rfl
    | _ => exact elsewhere rfl rfl
  | deliver arrive =>
    obtain rfl := Split.deliver_cases arrive
    exact elsewhere rfl rfl
  | close arrive =>
    obtain rfl := Split.close_cases arrive
    exact elsewhere rfl rfl

end Attributed

theorem attributed_of_run {guard : Bridge → Action → Prop} {build : Build} {input : Input}
    {output : Output} {busnum devnum : UInt32} {b : Bridge}
    (run : Reaches Bridge.step guard (imported build input output busnum devnum) b)
    (bound : b.split.issued.length < 2 ^ 32 - 1) : b.Attributed := by
  have both : b.Inv ∧ b.Attributed := by
    refine invariant_below (fun b => b.Inv ∧ b.Attributed)
      ⟨.initial .., by rintro _ _ ⟨⟩⟩ ?_ run bound
    rintro b a b' ⟨inv, h⟩ _ step small
    exact ⟨inv.step step (by omega), h.step inv step⟩
  exact both.2

end Bridge

/-! ## The loop of the reader thread -/

/-- Out of the loop. -/
def ReaderThread.left : ReaderThread → Bool
  | .lockDrain | .draining | .finished => true
  | _ => false

theorem Split.step_closed {s t : Split} {a : Split.Action} (step : s.step a = some t)
    (isOpen : t.closed = none) : s.closed = none := by
  cases Split.step_cases step with
  | writer move => cases move <;> exact isOpen
  | reader move => cases move <;> exact isOpen
  | close => cases isOpen
  | overflow | call | collect | takeResponse | deliver => exact isOpen

namespace Bridge

variable {b b' : Bridge} {a : Action}

theorem step_closed (step : b.step a = some b') (isOpen : b'.split.closed = none) :
    b.split.closed = none := by
  rcases step_split step with same | ⟨_, move, _⟩
  · exact same ▸ isOpen
  · exact Split.step_closed move isOpen

/-- Only an error of `recv` leads out of the loop. -/
theorem step_left (step : b.step a = some b') (left : b'.reader.left = true) :
    b.reader.left = true ∨ ∃ e, b.split.reader = .returned (.error e) := by
  cases step_cases step with
  | reader move =>
    cases move with
    | reading | unlink => exact .inl left
    | error pc take => exact .inr ⟨_, (Split.takeResponse_cases take).1⟩
    | lockDrain pc | drained pc => exact .inl (by rw [pc]; rfl)
    | submit | lockPending | found | unknown | deliver => cases left
  | call move => cases move <;> exact .inl left
  | start | drain | deliver | close => exact .inl left

/-- In a run in which senders are inserted first, handled replies are settled. -/
theorem settled_of_run {build : Build} {input : Input} {output : Output} {busnum devnum : UInt32}
    (run : Reaches Bridge.step InsertedFirst (imported build input output busnum devnum) b)
    (bound : b.split.issued.length < 2 ^ 32 - 1) : b.AllSettled := by
  have both : b.Inv ∧ b.AllSettled := by
    refine invariant_below (fun b => b.Inv ∧ b.AllSettled)
      ⟨.initial .., by rintro _ ⟨⟩⟩ ?_ run bound
    rintro b a b' ⟨inv, settled⟩ first step small
    exact ⟨inv.step step (by omega), inv.settled_step settled first step (by omega)⟩
  exact both.2

end Bridge

/-! ## The conversation -/

/-- The program and the server. `received` are the commands the server has,
`answers` all that it has answered and `flight` the bytes of these that have not
reached the client. -/
structure Conversation where
  system : System
  received : List (UInt32 × Command)
  answers : List Answer
  flight : List UInt8

namespace Conversation

def imported (build : Build) (input : Input) (output : Output) (busnum devnum : UInt32) :
    Conversation :=
  ⟨.imported build input output busnum devnum, [], [], []⟩

inductive Action where
  | program (a : System.Action)
  | receive (cmd : UInt32 × Command)
  | answer (a : Answer)
  | deliver (n : ℕ)

def step (x : Conversation) : Action → Option Conversation
  | .program a => (x.system.step a).map fun system => { x with system }
  | .receive cmd => some { x with received := x.received ++ [cmd] }
  | .answer a =>
    some { x with answers := x.answers ++ [a], flight := x.flight ++ a.message.encode }
  | .deliver n => (x.system.step (.bridge (.deliver (x.flight.take n)))).map fun system =>
    { x with system, flight := x.flight.drop n }

/-- What the halves of the connection see of it. -/
def exchange (x : Conversation) : Exchange :=
  ⟨x.system.bridge.split, x.received, x.answers, x.flight⟩

/-- The server conforms, the bytes that arrive are those of its answers, a write
that fails has not given it the complete command, and no answer is looked up
before its caller has inserted its sender. -/
def Conforming (x : Conversation) : Action → Prop
  | .program (.bridge (.deliver _)) => False
  | .program (.bridge (.call _ fates)) => ∀ cmd ∈ x.received,
      x.system.bridge.split.writer.writing = some cmd → x.exchange.Succeeds fates cmd
  | .program (.bridge .reader) => x.system.bridge.InsertedFirst .reader
  | .program _ => True
  | .receive cmd =>
    cmd ∈ x.system.bridge.split.written ∨ x.system.bridge.split.writer.writing = some cmd
  | .answer a => a.Allowed x.received x.answers
  | .deliver _ => True

variable {x x' : Conversation} {a : Action}

/-- A step of the bridge is one of the halves, or none. -/
theorem bridge_exchange {b : Bridge.Action} {bridge : Bridge}
    (guard : x.Conforming (.program (.bridge b))) (move : x.system.bridge.step b = some bridge) :
    bridge.split = x.system.bridge.split ∨
      ∃ a, x.exchange.Conforming (.client a) ∧ x.exchange.split.step a = some bridge.split := by
  cases Bridge.step_cases move with
  | start | drain => exact .inl rfl
  | call move =>
    cases move with
    | allocated pc call | panicked pc call => exact .inr ⟨.call _, trivial, call⟩
    | writing pc step => exact .inr ⟨.writer _, guard, step⟩
    | written pc collect | failed pc collect =>
      exact .inr ⟨.collect, trivial, by rw [Split.step, exchange, collect, Option.map_some]⟩
    | _ => exact .inl rfl
  | reader move =>
    cases move with
    | reading pc step => exact .inr ⟨.reader, trivial, step⟩
    | submit pc take | unlink pc take | error pc take =>
      exact .inr ⟨.takeResponse, trivial, by rw [Split.step, exchange, take, Option.map_some]⟩
    | _ => exact .inl rfl
  | deliver => exact guard.elim
  | close step => exact .inr ⟨.close _, trivial, step⟩

/-- Every step is one of the halves with the server, or none. -/
theorem step_exchange (guard : x.Conforming a) (move : x.step a = some x') :
    x'.exchange = x.exchange ∨
      ∃ b, x.exchange.Conforming b ∧ x.exchange.step b = some x'.exchange := by
  cases a with
  | program a =>
    obtain ⟨s, stepped, rfl⟩ := Option.map_eq_some_iff.mp move
    have same (split : s.bridge.split = x.system.bridge.split) :
        exchange { x with system := s } = x.exchange := by simp only [exchange, split]
    rcases System.program_bridge stepped with bridge | ⟨c, request, start⟩ | ⟨b, rfl, hop⟩
    · exact .inl (same (congrArg Bridge.split bridge))
    · obtain ⟨_, bridge⟩ := Bridge.start_cases start
      exact .inl (same (by rw [bridge, Bridge.setCall_split]))
    · rcases bridge_exchange guard hop with split | ⟨a, conforms, step⟩
      · exact .inl (same split)
      · exact .inr ⟨.client a, conforms, by rw [Exchange.step, step, Option.map_some]; rfl⟩
  | receive cmd =>
    obtain rfl := Option.some.inj move
    exact .inr ⟨.receive cmd, guard, rfl⟩
  | answer a =>
    obtain rfl := Option.some.inj move
    exact .inr ⟨.answer a, guard, rfl⟩
  | deliver n =>
    obtain ⟨s, stepped, rfl⟩ := Option.map_eq_some_iff.mp move
    obtain ⟨bridge, hop, rfl⟩ := Option.map_eq_some_iff.mp stepped
    obtain ⟨split, delivered, rfl⟩ := Option.map_eq_some_iff.mp hop
    refine .inr ⟨.deliver n, trivial, ?_⟩
    rw [Exchange.step, exchange, delivered, Option.map_some]
    rfl

/-- Every step is one of the bridge, or none. -/
theorem step_bridge (guard : x.Conforming a) (move : x.step a = some x') :
    x'.system.bridge = x.system.bridge ∨
      ∃ b, x.system.bridge.InsertedFirst b ∧ x.system.bridge.step b = some x'.system.bridge := by
  cases a with
  | program a =>
    obtain ⟨s, stepped, rfl⟩ := Option.map_eq_some_iff.mp move
    rcases System.program_bridge stepped with bridge | ⟨c, request, start⟩ | ⟨b, rfl, hop⟩
    · exact .inl bridge
    · exact .inr ⟨.start c request, trivial, start⟩
    · refine .inr ⟨b, ?_, hop⟩
      cases b with
      | reader => exact guard
      | _ => trivial
  | receive cmd | answer a =>
    obtain rfl := Option.some.inj move
    exact .inl rfl
  | deliver n =>
    obtain ⟨s, stepped, rfl⟩ := Option.map_eq_some_iff.mp move
    obtain ⟨bridge, hop, rfl⟩ := Option.map_eq_some_iff.mp stepped
    exact .inr ⟨.deliver _, trivial, hop⟩

section Runs

variable {build : Build} {input : Input} {output : Output} {busnum devnum : UInt32}
  (run : Reaches step Conforming (imported build input output busnum devnum) x)

include run

theorem reaches_exchange : Reaches Exchange.step Exchange.Conforming
    (.imported build input output busnum devnum) x.exchange := by
  refine run.simulate exchange fun x a x' guard move => ?_
  exact step_exchange guard move

theorem reaches_bridge : Reaches Bridge.step Bridge.InsertedFirst
    (.imported build input output busnum devnum) x.system.bridge := by
  refine run.simulate (fun x => x.system.bridge) fun x a x' guard move => ?_
  exact step_bridge guard move

theorem reaches_system : Reaches System.step always
    (.imported build input output busnum devnum) x.system := by
  refine run.simulate system fun x a x' _ move => ?_
  cases a with
  | program a =>
    obtain ⟨s, stepped, rfl⟩ := Option.map_eq_some_iff.mp move
    exact .inr ⟨a, trivial, stepped⟩
  | receive cmd | answer a =>
    obtain rfl := Option.some.inj move
    exact .inl rfl
  | deliver n =>
    obtain ⟨s, stepped, rfl⟩ := Option.map_eq_some_iff.mp move
    exact .inr ⟨_, trivial, stepped⟩

theorem scopes_of_run : x.system.bridge.Scopes :=
  Bridge.scopes_reachable (System.reaches_bridge (reaches_system run))

theorem fresh_of_run : x.system.bridge.Fresh :=
  Bridge.fresh_reachable (System.reaches_bridge (reaches_system run))

/-- The invariants of the two ends and of what is between them. -/
theorem exchange_of_run (bound : x.system.bridge.split.issued.length < 2 ^ 32 - 1) :
    ∃ done todo, x.exchange.Inv done todo ∧ x.exchange.Tracked done := by
  have below : x.exchange.split.issued.length < 2 ^ 32 := Nat.lt_of_lt_of_le bound (by omega)
  exact Exchange.tracked_of_run (reaches_exchange run) below

/-- With a conforming server the reader thread leaves its loop only when the stream ends. -/
theorem closed_of_left (bound : x.system.bridge.split.issued.length < 2 ^ 32)
    (left : x.system.bridge.reader.left = true) : x.system.bridge.split.closed ≠ none := by
  induction run with
  | start => cases left
  | @next x x' a earlier guard move ih =>
    intro isOpen
    rcases step_bridge guard move with same | ⟨b, _, hop⟩
    · rw [same] at bound left isOpen
      exact ih bound left isOpen
    · have grown := Bridge.issued_length_le hop
      have before := Bridge.step_closed hop isOpen
      rcases Bridge.step_left hop left with left | ⟨e, pc⟩
      · exact ih (by omega) left before
      · obtain ⟨done, todo, h⟩ := Exchange.Inv.of_run (reaches_exchange earlier)
          (show x.exchange.split.issued.length < 2 ^ 32 by exact Nat.lt_of_le_of_lt grown bound)
        cases before.symm.trans (h.errors pc)

/-- A reply is what its header and the command say. -/
theorem decoded_reply (bound : x.system.bridge.split.issued.length < 2 ^ 32 - 1)
    {header : RetSubmitHeader} {ret : RetSubmit} {c : CallId}
    (decoded : (header, ret) ∈ x.system.bridge.split.decoded)
    (number : (x.system.bridge.calls c).seqnum = some header.seqnum) :
    ret = header.toRet ret.data (x.system.bridge.calls c).request.args.direction := by
  obtain ⟨inv, _⟩ := Bridge.registered_of_run (reaches_bridge run) bound
  obtain ⟨done, todo, _, tracked⟩ := exchange_of_run run bound
  obtain ⟨_, seqnum, args, issued, direction⟩ := inv.split.decoded _ ret decoded
  have mine := inv.numbered c _ number
  rw [seqnum] at issued
  obtain rfl := Command.submit.inj (issued.unique (by omega) mine)
  rw [direction]
  exact tracked.whole _ ret decoded

section Rest

variable (bound : x.system.bridge.split.issued.length < 2 ^ 32 - 1)
  (still : x.system.Standstill) (isOpen : x.system.bridge.split.closed = none)
  (landed : x.flight = [])

include bound still isOpen landed

/-- At rest the reader thread has decoded all answers, and handled what it decoded. -/
theorem decoded_all : x.system.bridge.split.decoded.map (fun p => (p.1, p.2.data)) =
    x.answers.filterMap Exchange.part ∧
    x.system.bridge.split.decoded.map Prod.snd = x.system.bridge.handled := by
  have scopes := scopes_of_run run
  have fresh := fresh_of_run run
  obtain ⟨inv, _⟩ := Bridge.registered_of_run (reaches_bridge run) bound
  obtain ⟨done, todo, h, tracked⟩ := exchange_of_run run bound
  rcases still.still.reader scopes fresh with ⟨⟨receiving, position⟩, _, stuck⟩ | finished
  · have busy : ∀ result, x.system.bridge.split.reader ≠ .returned result := by
      rintro result returned
      rcases position with pc | ⟨_, _, pc⟩ <;> simp [pc] at returned
    rw [Bridge.readerStep_receiving receiving busy, Option.map_eq_none_iff] at stuck
    refine ⟨h.decoded_all tracked isOpen landed position stuck, ?_⟩
    have none : x.system.bridge.split.reader.result = [] := by
      rcases position with pc | ⟨_, _, pc⟩ <;> simp [pc, ReaderPc.result]
    have carried : x.system.bridge.reader.carried = [] := by rw [receiving]; rfl
    rw [inv.replies, none, carried, List.append_nil, List.append_nil]
  · refine absurd isOpen (closed_of_left run (by omega) ?_)
    rw [finished]
    rfl

/-- So it is done with every answer. -/
theorem answer_handled {header : RetSubmitHeader} {payload : List UInt8}
    (answered : .submit header payload ∈ x.answers) : ∃ ret ∈ x.system.bridge.handled,
      (header, ret) ∈ x.system.bridge.split.decoded ∧ ret.seqnum = header.seqnum ∧
        ret.data = payload := by
  obtain ⟨inv, _⟩ := Bridge.registered_of_run (reaches_bridge run) bound
  obtain ⟨all, handled⟩ := decoded_all run bound still isOpen landed
  have part : (header, payload) ∈ x.system.bridge.split.decoded.map fun p => (p.1, p.2.data) :=
    all ▸ List.mem_filterMap.mpr ⟨_, answered, rfl⟩
  obtain ⟨⟨_, ret⟩, decoded, same⟩ := List.mem_map.mp part
  obtain ⟨rfl, rfl⟩ := Prod.mk.inj same
  obtain ⟨_, seqnum, _⟩ := inv.split.decoded _ ret decoded
  exact ⟨ret, handled ▸ List.mem_map.mpr ⟨_, decoded, rfl⟩, decoded, seqnum, rfl⟩

/-- The command of an answer is that of a call whose write has succeeded: where the
server answers a command of which the write has not returned, the reader thread is
not done with that answer. -/
theorem answered_call {header : RetSubmitHeader} {payload : List UInt8}
    (answered : .submit header payload ∈ x.answers) :
    ∃ c, (x.system.bridge.calls c).seqnum = some header.seqnum ∧
      (x.system.bridge.calls c).wrote = true := by
  have scopes := scopes_of_run run
  have fresh := fresh_of_run run
  obtain ⟨inv, _⟩ := Bridge.registered_of_run (reaches_bridge run) bound
  obtain ⟨done, todo, h, _⟩ := exchange_of_run run bound
  have writing (busy : x.system.bridge.split.writer.busy = true) :
      ∃ c, x.system.bridge.Writing c := by
    obtain ⟨c, sending⟩ := scopes.busy.mp busy
    have owner := scopes.owner (c := c) (by simp [sending, CallPc.guarded])
    exact ⟨c, still.still.writing_of_owner scopes fresh owner⟩
  obtain ⟨earlier, later, split⟩ := List.append_of_mem answered
  obtain ⟨_, args, mem, _⟩ := h.allowed _ _ _ split
  rcases h.received _ mem with written | here
  · rcases Bridge.attributed_of_run (reaches_bridge run) bound _ _ written with result | found
    · obtain ⟨_, _, _, _, writer⟩ := writing (by rw [result]; rfl)
      cases result.symm.trans writer
    · exact found
  · have here : x.system.bridge.split.writer.writing = some (header.seqnum, .submit args) := here
    exfalso
    cases writer : x.system.bridge.split.writer with
    | write seqnum cmd =>
      rw [writer] at here
      obtain ⟨rfl, rfl⟩ := Prod.mk.inj (Option.some.inj here)
      obtain ⟨c, sending, _⟩ := writing (by rw [writer]; rfl)
      obtain ⟨n, issued, number⟩ := inv.sending c sending
      obtain ⟨n', issued', _, same⟩ := inv.split.serving header.seqnum _ (by rw [writer]; rfl)
      obtain rfl : n = n' := by omega
      obtain ⟨ret, reached, _, seqnum, _⟩ :=
        answer_handled run bound still isOpen landed answered
      have settled := Bridge.settled_of_run (reaches_bridge run) bound ret reached c
        (number.trans (congrArg some (same.symm.trans seqnum.symm)))
      obtain ⟨channel, _⟩ := (inv.progress c).unused (by rw [sending]; rfl) (by simp [sending])
      rcases settled with ⟨_, _, pc⟩ | mem | pc
      · cases sending.symm.trans pc
      · simp [channel] at mem
      · cases sending.symm.trans pc
    | _ => simp [writer, WriterPc.writing] at here

/-- A call that was answered has returned the answer. -/
theorem answer_returned {header : RetSubmitHeader} {payload : List UInt8}
    (answered : .submit header payload ∈ x.answers) {c : CallId}
    (number : (x.system.bridge.calls c).seqnum = some header.seqnum)
    (wrote : (x.system.bridge.calls c).wrote = true) :
    (x.system.bridge.calls c).pc = .returned (.ok (header.toRet payload
      (x.system.bridge.calls c).request.args.direction)) := by
  have scopes := scopes_of_run run
  have fresh := fresh_of_run run
  obtain ⟨inv, _⟩ := Bridge.registered_of_run (reaches_bridge run) bound
  obtain ⟨ret, reached, decoded, seqnum, rfl⟩ :=
    answer_handled run bound still isOpen landed answered
  rw [← decoded_reply run bound decoded number]
  have settled := Bridge.settled_of_run (reaches_bridge run) bound ret reached c
    (number.trans (congrArg some seqnum.symm))
  rcases settled with ⟨none, _⟩ | channel | returned
  · cases none.symm.trans wrote
  · exfalso
    have waiting : (x.system.bridge.calls c).pc.waiting = true := by
      cases inv.progress c with
      | unnumbered _ _ unused | sending _ unused | registering _ _ unused | failed _ unused =>
        simp [unused.1] at channel
      | waiting pc | answered pc => exact pc
      | returned _ _ empty => simp [empty] at channel
    obtain ⟨_, empty, _⟩ := still.still.recv scopes fresh waiting
    simp [empty] at channel
  · exact returned

end Rest

end Runs

/-- At rest, while the stream is open and all that the server sent has arrived: every
answer has been returned by the call it is for, and the thread has gone on; a thread
that is left in `submit` has not been answered, and waits for the answer or has a
command to send that the server does not take; and nothing has been returned that is
not an answer. -/
theorem answers_arrive {build : Build} {input : Input} {output : Output} {busnum devnum : UInt32}
    {x : Conversation}
    (run : Reaches Conversation.step Conforming (imported build input output busnum devnum) x)
    (bound : x.system.bridge.split.issued.length < 2 ^ 32 - 1) (still : x.system.Standstill)
    (isOpen : x.system.bridge.split.closed = none) (landed : x.flight = []) :
    (∀ header payload, .submit header payload ∈ x.answers → ∃ c,
      (x.system.bridge.calls c).seqnum = some header.seqnum ∧
        (x.system.bridge.calls c).pc = .returned (.ok (header.toRet payload
          (x.system.bridge.calls c).request.args.direction)) ∧
        ∀ p, x.system.callOf p ≠ some c) ∧
    (∀ p c, x.system.callOf p = some c →
      (∀ header payload, .submit header payload ∈ x.answers →
        (x.system.bridge.calls c).seqnum ≠ some header.seqnum) ∧
      ((x.system.bridge.calls c).pc = .panicked ∨ x.system.bridge.Unsent c ∨
        (x.system.bridge.calls c).pc = .recv ∧ ∃ k,
          (x.system.bridge.calls c).seqnum = some k ∧
          (k, .submit (x.system.bridge.calls c).request.args) ∈
            x.system.bridge.split.written)) ∧
    ∀ c ret, (x.system.bridge.calls c).pc = .returned (.ok ret) → ∃ header,
      .submit header ret.data ∈ x.answers ∧
        (x.system.bridge.calls c).seqnum = some header.seqnum ∧
        ret = header.toRet ret.data (x.system.bridge.calls c).request.args.direction := by
  obtain ⟨inv, _⟩ := Bridge.registered_of_run (reaches_bridge run) bound
  obtain ⟨log, logged⟩ := Logged.of_reaches (reaches_system run)
  have wired := (System.sound_of_run logged bound).wired
  have callers : x.system.Callers := System.callers_reachable (reaches_system run)
  have scopes := scopes_of_run run
  have fresh := fresh_of_run run
  have returned {header : RetSubmitHeader} {payload : List UInt8}
      (answered : .submit header payload ∈ x.answers) : ∃ c,
        (x.system.bridge.calls c).seqnum = some header.seqnum ∧
          (x.system.bridge.calls c).pc = .returned (.ok (header.toRet payload
            (x.system.bridge.calls c).request.args.direction)) := by
    obtain ⟨c, number, wrote⟩ := answered_call run bound still isOpen landed answered
    exact ⟨c, number, answer_returned run bound still isOpen landed answered number wrote⟩
  refine ⟨fun header payload answered => ?_, fun p c call => ⟨?_, ?_⟩, fun c ret pc => ?_⟩
  · obtain ⟨c, number, pc⟩ := returned answered
    exact ⟨c, number, pc, fun p call => still.not_returned callers call _ pc⟩
  · intro header payload answered mine
    obtain ⟨d, number, pc⟩ := returned answered
    obtain rfl := inv.own c d _ mine number
    exact still.not_returned callers call _ pc
  · rcases callers.call_cases call with underWay | ⟨result, pc⟩ | pc
    · rcases still.still.call_cases scopes fresh underWay with unsent | ⟨pc, _⟩
      · exact .inr (.inl unsent)
      · obtain ⟨k, number, wrote, _⟩ := (inv.progress c).of_waiting (.inr pc)
        exact .inr (.inr ⟨pc, k, number, wired.wrote c k number wrote⟩)
    · exact absurd pc (still.not_returned callers call result)
    · exact .inl pc
  · have progress := inv.progress c
    cases progress with
    | returned pc' number _ _ _ owed =>
      obtain rfl := CallPc.returned.inj (pc'.symm.trans pc)
      obtain ⟨rfl, reached⟩ := owed
      obtain ⟨all, _⟩ := decoded_all run bound still isOpen landed
      obtain ⟨header, decoded⟩ := inv.handled_decoded reached
      obtain ⟨_, seqnum, _⟩ := inv.split.decoded _ ret decoded
      rw [seqnum] at number
      refine ⟨header, ?_, number, decoded_reply run bound decoded number⟩
      have part : (header, ret.data) ∈ x.answers.filterMap Exchange.part :=
        all ▸ List.mem_map.mpr ⟨_, decoded, rfl⟩
      obtain ⟨answer, mem, same⟩ := List.mem_filterMap.mp part
      cases answer with
      | submit => cases same; exact mem
      | unlink => cases same
    | unnumbered pc' => simp [pc, CallPc.unnumbered] at pc'
    | sending pc' | failed pc' => cases pc.symm.trans pc'
    | registering pc' => rcases pc' with pc' | pc' <;> cases pc.symm.trans pc'
    | waiting pc' | answered pc' => simp [pc, CallPc.waiting] at pc'

/-! ### A host that asks twice -/

/-- The server may give this answer first. -/
def allowedFirst (received : List (UInt32 × Command)) : Answer → Bool
  | .submit header payload => decide (header.command = usbipRetSubmit) && received.any fun cmd =>
      match cmd.2 with
      | .submit args => decide (header.seqnum = cmd.1 ∧
          payload.length = Answer.payloadLength header args.direction)
      | .unlink _ => false
  | .unlink .. => false

theorem allowed_of_first {received : List (UInt32 × Command)} {a : Answer}
    (first : allowedFirst received a = true) : a.Allowed received [] := by
  cases a with
  | submit header payload =>
    simp only [allowedFirst, Bool.and_eq_true, decide_eq_true_eq, List.any_eq_true] at first
    obtain ⟨command, ⟨k, cmd⟩, mem, matched⟩ := first
    cases cmd with
    | submit args =>
      obtain ⟨rfl, length⟩ := of_decide_eq_true matched
      exact ⟨command, args, mem, by simp [Answer.Open], length⟩
    | unlink => cases matched
  | unlink => cases first

/-- A test for the steps of a run with one answer, but for the lookup of its number. -/
def oneAnswer (x : Conversation) : Action → Bool
  | .program (.bridge (.deliver _)) => false
  | .program (.bridge (.call _ _)) => x.received.all fun cmd =>
      decide (x.system.bridge.split.writer.writing ≠ some cmd)
  | .program (.bridge .reader) => Bridge.notLookup x.system.bridge .reader
  | .receive cmd => x.system.bridge.split.written.contains cmd
  | .answer a => x.answers.isEmpty && allowedFirst x.received a
  | .program _ | .deliver _ => true

theorem conforming_of_oneAnswer (x : Conversation) (a : Action) (ok : oneAnswer x a = true) :
    x.Conforming a := by
  cases a with
  | program a =>
    cases a with
    | bridge b =>
      cases b with
      | deliver => cases ok
      | call c fates =>
        intro cmd mem writing
        exact absurd writing (of_decide_eq_true (List.all_eq_true.mp ok cmd mem))
      | reader => exact Bridge.insertedFirst_of_notLookup _ .reader ok
      | _ => trivial
    | _ => trivial
  | receive cmd => exact .inl (List.contains_iff_mem.mp ok)
  | answer a =>
    obtain ⟨none, first⟩ := Bool.and_eq_true_iff.mp ok
    show a.Allowed x.received x.answers
    rw [List.isEmpty_iff.mp none]
    exact allowed_of_first first
  | deliver => trivial

/-- The host asks for the configuration descriptor. -/
def ask (c : CallId) : List Action :=
  [.program (.main (.ioctl (System.fetchedControl (System.getConfigDescriptor 25)))),
    .program (.main .submit)] ++ (System.runCall c).map .program

def firstAnswer : Answer :=
  .submit { Bridge.firstHeader with actualLength := 25 } System.configDescriptor

/-- The server answers, and the reader thread has the answer. -/
def answerFirst : List Action :=
  [.receive (1, .submit (controlRequest (System.getConfigDescriptor 25) .in [] 25).args),
    .answer firstAnswer, .deliver 50, .deliver 50] ++ List.replicate 6 (.program (.bridge .reader))

/-- The main thread returns it to the host. -/
def returnFirst : List Action :=
  [.program (.bridge .reader), .program (.bridge (.call 0 [])), .program (.main .resume),
    .program (.main (.ioctl System.done)), .program (.main .next)]

def asked : Conversation :=
  imported .release ⟨[], ⟨.unexpectedEof, "failed to fill whole buffer"⟩⟩ ⟨[], []⟩ 1 2

/-- No call is about to insert its sender. -/
def noneInserting (b : Bridge) : Bool := decide (b.writer = none)

/-- The main thread waits for the second answer, the first has come. -/
def waitsForSecond (x : Conversation) : Bool :=
  x.system.atRest && x.system.bridge.split.closed.isNone &&
    decide (x.system.bridge.split.issued.length < 2 ^ 32 - 1 ∧ x.flight = [] ∧
      x.answers = [firstAnswer] ∧ x.system.callOf .main = some 1) &&
    match (x.system.bridge.calls 1).pc with
    | .panicked | .sending | .lockWriter => false
    | _ => true

/-- The first answer has reached its call, and the second request is not answered. -/
theorem answers_arrive_config : ∃ x : Conversation, x.system.Standstill ∧
    (∃ c ret, (x.system.bridge.calls c).pc = .returned (.ok ret) ∧
      ret.data = System.configDescriptor) ∧
    (x.system.bridge.calls 1).pc = .recv ∧
    ∃ k cmd, (k, cmd) ∈ x.system.bridge.split.written ∧
      ∀ header payload, .submit header payload ∈ x.answers → header.seqnum ≠ k := by
  obtain ⟨x₁, run₁, found₁⟩ := Reaches.of_exec_any Conversation.step conforming_of_oneAnswer asked
    (ask 0 ++ answerFirst) (fun x => noneInserting x.system.bridge &&
      (x.step (.program (.bridge .reader))).any fun x =>
        (exec (restrict oneAnswer Conversation.step) x (returnFirst ++ ask 1)).any waitsForSecond)
    (by decide +kernel)
  simp only [Bool.and_eq_true, Option.any_eq_true] at found₁
  obtain ⟨inserted, x₂, lookup, x, rest, waits⟩ := found₁
  have first : x₁.Conforming (.program (.bridge .reader)) := by
    intro ret _ c _
    have scopes := scopes_of_run run₁
    have outside : (x₁.system.bridge.calls c).pc.guarded ≠ true := by
      intro guarded
      cases (of_decide_eq_true inserted).symm.trans (scopes.owner guarded)
    cases pc : (x₁.system.bridge.calls c).pc <;> simp [pc, CallPc.guarded] at outside <;> rfl
  have run : Reaches Conversation.step Conforming asked x :=
    (run₁.next first lookup).trans (.of_exec conforming_of_oneAnswer rest)
  simp only [waitsForSecond, Bool.and_eq_true, decide_eq_true_eq, Option.isNone_iff_eq_none]
    at waits
  obtain ⟨⟨⟨rests, isOpen⟩, bound, landed, answers, call⟩, here⟩ := waits
  have callers : x.system.Callers := System.callers_reachable (reaches_system run)
  have still := callers.standstill_of_atRest rests
  obtain ⟨arrived, waiting, -⟩ := answers_arrive run bound still isOpen landed
  obtain ⟨c, _, pc, _⟩ := arrived _ _ (by rw [answers]; exact List.mem_singleton_self _)
  refine ⟨x, still, ⟨c, _, pc, rfl⟩, ?_⟩
  obtain ⟨unanswered, panicked | unsent | ⟨recv, k, number, written⟩⟩ := waiting .main 1 call
  · simp [panicked] at here
  · rcases unsent.pc with pc | pc <;> simp [pc] at here
  · refine ⟨recv, k, _, written, fun header payload answered same => ?_⟩
    exact unanswered header payload answered (same ▸ number)

end Conversation

end UsbipDevirt
