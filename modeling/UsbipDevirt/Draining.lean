import UsbipDevirt.Deadlock

/-!
# The end of the reader thread

The loop of `reader_thread` has no exit of its own but the first `Err` of `recv`.
Every `Ok` has used up a header of 48 bytes, every step of the thread uses up
something, and what the drain finds in the map are senders that were never used.
The log of a run tells the rest.
-/

namespace UsbipDevirt

open Transition Bytes

/-! ## Decoding -/

/-- `T::ref_from_bytes(&buf).expect(..)`; `none` is the panic. -/
def refFromBytes {α : Type} (f : Format α) (buf : List UInt8) : Option α :=
  if buf.length = f.width then some (f.get buf) else none

/-- The `match command` of `recv` with every way to panic in it. -/
def decodeHeader (buf : List UInt8) : Option ResponseHeader := do
  let command := u32be.get [← buf[0]?, ← buf[1]?, ← buf[2]?, ← buf[3]?]
  if command = usbipRetSubmit then
    some (.retSubmit (← refFromBytes RetSubmitHeader.format buf))
  else if command = usbipRetUnlink then
    some (.retUnlink (← refFromBytes RetUnlinkHeader.format buf))
  else some (.unknown command)

theorem decodeHeader_eq {buf : List UInt8} (length : buf.length = 48) :
    decodeHeader buf = some (parseHeader buf) := by
  obtain ⟨a, b, c, d, rest, rfl⟩ : ∃ a b c d rest, buf = a :: b :: c :: d :: rest := by
    match buf with
    | a :: b :: c :: d :: rest => exact ⟨a, b, c, d, rest, rfl⟩
    | [] | [_] | [_, _] | [_, _, _] => simp at length
  have submit : refFromBytes RetSubmitHeader.format (a :: b :: c :: d :: rest) =
      some (RetSubmitHeader.format.get (a :: b :: c :: d :: rest)) := if_pos length
  have unlink : refFromBytes RetUnlinkHeader.format (a :: b :: c :: d :: rest) =
      some (RetUnlinkHeader.format.get (a :: b :: c :: d :: rest)) := if_pos length
  have front : (a :: b :: c :: d :: rest).take 4 = [a, b, c, d] := rfl
  simp only [decodeHeader, parseHeader, front, submit, unlink, List.getElem?_cons_zero,
    List.getElem?_cons_succ, Option.bind_eq_bind, Option.bind_some]
  split
  · rfl
  · split <;> rfl

/-! ## The log -/

abbrev BridgeEntry := Entry Bridge Bridge.Action Unit

abbrev BridgeLog := List BridgeEntry

namespace Bridge

/-- The bridge as a machine that returns nothing. -/
def perform (b : Bridge) (a : Action) : Option (Unit × Bridge) := (b.step a).map fun b' => ((), b')

def Action.bytes : Action → List UInt8
  | .deliver bytes => bytes
  | _ => []

/-- What the server has sent. -/
def delivered (log : BridgeLog) : List UInt8 := log.flatMap fun e => e.action.bytes

def returnsOk : ReaderPc → ReaderPc → Bool
  | .returned _, _ => false
  | _, .returned (.ok _) => true
  | _, _ => false

def returnsErr : ReaderPc → ReaderPc → Bool
  | .returned _, _ => false
  | _, .returned (.error _) => true
  | _, _ => false

/-- In this step `recv` returns `Ok`. -/
def recvOk (e : BridgeEntry) : Bool := returnsOk e.before.split.reader e.after.split.reader

/-- In this step `recv` returns `Err`. -/
def recvErr (e : BridgeEntry) : Bool := returnsErr e.before.split.reader e.after.split.reader

/-- A step in which `recv` reads from the socket. -/
def Reads (e : BridgeEntry) : Prop := e.action = .reader ∧ e.before.Reading

/-- In this step the drain takes the lock. -/
def takesDrain (e : BridgeEntry) : Bool :=
  match e.before.reader, e.after.reader with
  | .lockDrain, .draining => true
  | _, _ => false

/-- In this step the drain sends to a sender it has found under this number. -/
def drainSend (e : BridgeEntry) : Option (UInt32 × CallId) :=
  match e.action with
  | .drain k => (e.before.pending.lookup k).map fun c => (k, c)
  | _ => none

def drainSends (log : BridgeLog) : List (UInt32 × CallId) := log.filterMap drainSend

/-- In this step a sender is put into `bridge.pending`. -/
def inserts (e : BridgeEntry) : Bool :=
  match e.action with
  | .call c _ =>
    match (e.before.calls c).pc with
    | .insert _ => true
    | _ => false
  | _ => false

theorem length_delivered_snoc (log : BridgeLog) (b b' : Bridge) (a : Action) (o : Unit) :
    (delivered (log ++ [⟨b, a, o, b'⟩])).length = (delivered log).length + a.bytes.length := by
  simp [delivered]

theorem perform_cases {b b' : Bridge} {a : Action} (h : b.perform a = some ((), b')) :
    b.step a = some b' := by
  obtain ⟨_, step, same⟩ := Option.map_eq_some_iff.mp h
  rw [step, (Prod.mk.inj same).2]

theorem reaches_of_logged {start b : Bridge} {log : BridgeLog} (run : Logged perform start log b) :
    Reaches Bridge.step always start b := by
  induction run with
  | start => exact .start
  | next _ move ih => exact .next ih trivial (perform_cases move)

/-! ## Bytes used up -/

/-- The 48 bytes of the header that a `recv` in progress has read. -/
def headerRead : ReaderPc → ℕ
  | .header | .returned _ => 0
  | _ => 48

/-- What a step does to the reader half. -/
inductive ReaderChange (b b' : Bridge) (a : Action) : Prop where
  | same (reader : b'.split.reader = b.split.reader)
      (arrived : b'.split.arrived = b.split.arrived ++ a.bytes)
  | reading (mine : a = .reader) (pc : b.reader = .receiving) (thread : b'.reader = .receiving)
      (move : b.split.ReaderMove b'.split)
  | taken {result : Except IoError UrbResponse} (mine : a = .reader) (pc : b.reader = .receiving)
      (before : b.split.reader = .returned result) (after : b'.split.reader = .header)
      (arrived : b'.split.arrived = b.split.arrived)

/-- A call does not touch what has arrived. -/
theorem callMove_keeps {b b' : Bridge} {c : CallId} {fates : List Fate}
    (move : CallMove b c fates b') :
    b'.split.arrived = b.split.arrived ∧ b'.split.closed = b.split.closed := by
  cases move with
  | allocated pc call | panicked pc call =>
    obtain ⟨_, ⟨_, rfl⟩ | ⟨_, _, _, rfl⟩⟩ := Split.call_cases call <;> exact ⟨rfl, rfl⟩
  | writing pc write => cases Split.writerStep_cases write <;> exact ⟨rfl, rfl⟩
  | written pc collect | failed pc collect =>
    obtain ⟨_, rfl⟩ := Split.collect_cases collect
    exact ⟨rfl, rfl⟩
  | _ => exact ⟨rfl, rfl⟩

theorem step_readerChange {b b' : Bridge} {a : Action} (step : b.step a = some b') :
    ReaderChange b b' a := by
  have same (split : b'.split = b.split) (quiet : a.bytes = []) : ReaderChange b b' a :=
    .same (by rw [split]) (by rw [split, quiet, List.append_nil])
  cases step_cases step with
  | start | drain => exact same rfl rfl
  | call move =>
    refine .same (callMove_moves move).splitReader ?_
    rw [(callMove_keeps move).1]
    exact (List.append_nil _).symm
  | reader move =>
    cases move with
    | reading pc read => exact .reading rfl pc pc (Split.readerStep_cases read)
    | submit pc take | unlink pc take | error pc take =>
      obtain ⟨before, rfl⟩ := Split.takeResponse_cases take
      exact .taken rfl pc before rfl rfl
    | _ => exact same rfl rfl
  | deliver arrive =>
    obtain rfl := Split.deliver_cases arrive
    exact .same rfl rfl
  | close arrive =>
    obtain rfl := Split.close_cases arrive
    exact .same rfl (List.append_nil _).symm

theorem returnsOk_self (pc : ReaderPc) : returnsOk pc pc = false := by
  cases pc with
  | returned result => cases result <;> rfl
  | _ => rfl

/-- A header is used up with 48 bytes, and its `recv` returns once. -/
theorem readerMove_uses {s t : Split} (move : s.ReaderMove t) :
    (if returnsOk s.reader t.reader then 48 else 0) + headerRead t.reader + t.arrived.length ≤
      headerRead s.reader + s.arrived.length := by
  cases move with
  | submitHeader pc enough | unlinkHeader pc enough | unknownCommand pc enough =>
    simp only [pc, headerRead, returnsOk, List.length_drop]
    simp only [Bool.false_eq_true, if_false]
    omega
  | ended pc =>
    rcases pc with pc | ⟨_, _, pc⟩ <;> simp [pc, headerRead, returnsOk]
  | payload pc amount enough =>
    simp only [pc, headerRead, returnsOk, Split.returnSubmit, List.length_drop, if_true]
    omega
  | lockSubmit pc | unknownSeqnum pc | removeSubmit pc | lockUnlink pc | removeUnlink pc =>
    simp [pc, headerRead, returnsOk]

theorem step_uses {b b' : Bridge} {a : Action} (step : b.step a = some b') :
    (if returnsOk b.split.reader b'.split.reader then 48 else 0) + headerRead b'.split.reader +
      b'.split.arrived.length ≤
        headerRead b.split.reader + b.split.arrived.length + a.bytes.length := by
  cases step_readerChange step with
  | same reader arrived =>
    rw [reader, returnsOk_self, arrived, List.length_append]
    simp only [Bool.false_eq_true, if_false]
    omega
  | taken mine pc before after arrived =>
    simp [before, after, arrived, headerRead, returnsOk]
  | reading mine pc thread move =>
    have uses := readerMove_uses move
    omega

/-- Every `Ok` of `recv` has used up a header. -/
theorem recvs_le {start b : Bridge} {log : BridgeLog} (fresh : start.split.reader = .header)
    (empty : start.split.arrived = []) (run : Logged perform start log b) :
    48 * log.countP recvOk + headerRead b.split.reader + b.split.arrived.length ≤
      (delivered log).length := by
  refine run.invariant (fun log b =>
    48 * log.countP recvOk + headerRead b.split.reader + b.split.arrived.length ≤
      (delivered log).length) ?_ ?_
  · simp [fresh, empty, headerRead]
  · intro log s a o t ih move
    have uses := step_uses (perform_cases move)
    rw [length_delivered_snoc, List.countP_append, List.countP_singleton]
    by_cases ok : returnsOk s.split.reader t.split.reader = true
    · rw [if_pos ok] at uses
      rw [if_pos (show recvOk ⟨s, a, o, t⟩ = true from ok)]
      omega
    · rw [if_neg ok] at uses
      rw [if_neg (show ¬ recvOk ⟨s, a, o, t⟩ = true from ok)]
      omega

/-! ## After the first error -/

/-- `recv` has returned `Err` and is not called again. -/
def Stopped (b : Bridge) : Prop :=
  match b.reader with
  | .receiving => ∃ e, b.split.reader = .returned (.error e)
  | .lockDrain | .draining | .finished => True
  | _ => False

theorem stopped_step {b b' : Bridge} {a : Action} (h : b.Stopped) (step : b.step a = some b') :
    b'.Stopped := by
  have kept (thread : b'.reader = b.reader) (reader : b'.split.reader = b.split.reader) :
      b'.Stopped := by rwa [Stopped, thread, reader]
  have change := step_readerChange step
  cases step_cases step with
  | start | drain => exact kept rfl rfl
  | call move =>
    have m := callMove_moves move
    exact kept m.reader m.splitReader
  | deliver arrive =>
    obtain rfl := Split.deliver_cases arrive
    exact kept rfl rfl
  | close arrive =>
    obtain rfl := Split.close_cases arrive
    exact kept rfl rfl
  | reader move =>
    cases move with
    | reading pc read =>
      simp only [Stopped, pc] at h
      obtain ⟨e, returned⟩ := h
      cases Split.readerStep_cases read with
      | ended pc => rcases pc with pc | ⟨_, _, pc⟩ <;> simp [returned] at pc
      | submitHeader pc | unlinkHeader pc | unknownCommand pc | lockSubmit pc | unknownSeqnum pc
      | removeSubmit pc | payload pc | lockUnlink pc | removeUnlink pc => simp [returned] at pc
    | submit pc take | unlink pc take =>
      simp only [Stopped, pc] at h
      obtain ⟨e, returned⟩ := h
      obtain ⟨before, rfl⟩ := Split.takeResponse_cases take
      simp [returned] at before
    | error | lockDrain | drained => trivial
    | lockPending pc | found pc | unknown pc | deliver pc => simp [Stopped, pc] at h

theorem stopped_of_recvErr {b b' : Bridge} {a : Action} (step : b.step a = some b')
    (failed : recvErr ⟨b, a, (), b'⟩ = true) : b'.Stopped := by
  cases step_readerChange step with
  | same reader =>
    simp only [recvErr, reader] at failed
    cases hr : b.split.reader with
    | returned result => simp [hr, returnsErr] at failed
    | _ => simp [hr, returnsErr] at failed
  | taken mine pc before after => simp [recvErr, after, before, returnsErr] at failed
  | reading mine pc thread move =>
    simp only [Stopped, thread]
    simp only [recvErr] at failed
    cases hr : b'.split.reader with
    | returned result =>
      cases result with
      | error e => exact ⟨e, rfl⟩
      | ok response => cases hb : b.split.reader <;> simp [hr, hb, returnsErr] at failed
    | _ => cases hb : b.split.reader <;> simp [hr, hb, returnsErr] at failed

theorem not_reads_of_stopped {e : BridgeEntry} (h : e.before.Stopped) : ¬ Reads e := by
  rintro ⟨-, pc, position⟩
  simp only [Stopped, pc] at h
  obtain ⟨err, returned⟩ := h
  rcases position with position | ⟨_, _, position⟩ <;> simp [returned] at position

/-- Once `recv` has returned `Err`, nothing more is read. -/
theorem silent_after_error {start b : Bridge} {log : BridgeLog}
    (run : Logged perform start log b) :
    log.Pairwise (fun e f => recvErr e = true → ¬ Reads f) := by
  have both := run.invariant (fun log b => log.Pairwise (fun e f => recvErr e = true → ¬ Reads f) ∧
    ((∃ e ∈ log, recvErr e = true) → b.Stopped)) ?_ ?_
  · exact both.1
  · simp
  · intro log s a o t ih move
    have step := perform_cases move
    obtain ⟨silent, stopped⟩ := ih
    refine ⟨List.pairwise_append.mpr ⟨silent, List.pairwise_singleton .., ?_⟩, ?_⟩
    · intro e he f hf failed
      obtain rfl := List.mem_singleton.mp hf
      exact not_reads_of_stopped (stopped ⟨e, he, failed⟩)
    · rintro ⟨e, he, failed⟩
      rcases List.mem_append.mp he with he | he
      · exact stopped_step (stopped ⟨e, he, failed⟩) step
      · obtain rfl := List.mem_singleton.mp he
        exact stopped_of_recvErr step failed

/-! ## The number of steps -/

theorem fuel_call {b b' : Bridge} {c : CallId} {fates : List Fate} (move : CallMove b c fates b') :
    b'.fuel ≤ b.fuel + if inserts ⟨b, .call c fates, (), b'⟩ then 1 else 0 := by
  have m := callMove_moves move
  have arrived := (callMove_keeps move).1
  have entries : b'.pending.keys.card ≤
      b.pending.keys.card + if inserts ⟨b, .call c fates, (), b'⟩ then 1 else 0 := by
    cases move with
    | @insert seqnum pc =>
      have added : (b.pending.insert seqnum c).keys = insert seqnum b.pending.keys := by
        ext j
        simp [Finmap.mem_keys]
      simp only [inserts, pc, if_true, added]
      exact Finset.card_insert_le ..
    | _ => exact Nat.le_add_right ..
  simp only [fuel, m.reader, m.splitReader, arrived]
  omega

theorem fuel_step {b b' : Bridge} {a : Action} (h : b.Scopes) (step : b.step a = some b') :
    (if a.ofReader then 1 else 0) + b'.fuel ≤
      b.fuel + a.bytes.length + if inserts ⟨b, a, (), b'⟩ then 1 else 0 := by
  by_cases mine : a.ofReader = true
  · have less := h.fuel_lt mine step
    rw [if_pos mine]
    omega
  · rw [if_neg mine, Nat.zero_add]
    cases step_cases step with
    | reader | drain => exact absurd rfl mine
    | start => exact Nat.le_add_right_of_le (Nat.le_add_right b.fuel _)
    | call move =>
      have bounded := fuel_call move
      omega
    | deliver arrive =>
      obtain rfl := Split.deliver_cases arrive
      simp only [fuel, Action.bytes, List.length_append]
      omega
    | close arrive =>
      obtain rfl := Split.close_cases arrive
      exact Nat.le_add_right_of_le (Nat.le_add_right b.fuel _)

/-- The reader thread makes no more steps than there are bytes and senders for it. -/
theorem readerSteps_le {start b : Bridge} {log : BridgeLog} (h : start.Scopes)
    (run : Logged perform start log b) :
    log.countP (fun e => e.action.ofReader) + b.fuel ≤
      start.fuel + (delivered log).length + log.countP inserts := by
  have both := run.invariant (fun log b => b.Scopes ∧
    log.countP (fun e => e.action.ofReader) + b.fuel ≤
      start.fuel + (delivered log).length + log.countP inserts) ?_ ?_
  · exact both.2
  · exact ⟨h, by simp [delivered]⟩
  · rintro log s a o t ⟨h, ih⟩ move
    have step := perform_cases move
    have bounded := fuel_step h step
    refine ⟨scopes_step h step, ?_⟩
    rw [length_delivered_snoc, List.countP_append, List.countP_append, List.countP_singleton,
      List.countP_singleton]
    dsimp only
    have entry : inserts ⟨s, a, o, t⟩ = inserts ⟨s, a, (), t⟩ := rfl
    rw [entry]
    omega

/-! ## The drain -/

/-- The entries that the drain still has to send to. -/
def undrained (b : Bridge) : Table UInt32 CallId :=
  match b.reader with
  | .draining => b.pending
  | _ => ∅

/-- The drain took the lock at `e` and has sent to all it found there but these. -/
structure DrainedSince (b : Bridge) (e : BridgeEntry) (later : BridgeLog) : Prop where
  takes : takesDrain e = true
  only : ∀ f ∈ later, takesDrain f = false
  found : ∀ k c, e.before.pending.lookup k = some c ↔
    (k, c) ∈ drainSends later ∨ b.undrained.lookup k = some c
  once : ((drainSends later).map Prod.fst).Nodup
  gone : ∀ k c, (k, c) ∈ drainSends later → b.undrained.lookup k = none

/-- There is no drain yet, or exactly one. -/
def DrainLog (log : BridgeLog) (b : Bridge) : Prop :=
  (b.reader.ended = false ∧ (∀ e ∈ log, takesDrain e = false) ∧ drainSends log = []) ∨
    (b.reader.ended = true ∧ ∃ earlier e later, log = earlier ++ e :: later ∧
      (∀ f ∈ earlier, takesDrain f = false) ∧ drainSends earlier = [] ∧ b.DrainedSince e later)

/-- A step that is none of the drain's. -/
structure Apart (b b' : Bridge) (e : BridgeEntry) : Prop where
  takes : takesDrain e = false
  sends : drainSend e = none
  ended : b'.reader.ended = b.reader.ended
  undrained : b'.undrained = b.undrained

theorem DrainLog.apart {log : BridgeLog} {b b' : Bridge} {e : BridgeEntry} (h : DrainLog log b)
    (apart : Apart b b' e) : DrainLog (log ++ [e]) b' := by
  have quiet (l : BridgeLog) : drainSends (l ++ [e]) = drainSends l := by
    rw [drainSends, filterMap_snoc, apart.sends, Option.toList_none, List.append_nil, drainSends]
  have none {l : BridgeLog} (before : ∀ f ∈ l, takesDrain f = false) :
      ∀ f ∈ l ++ [e], takesDrain f = false :=
    List.forall_mem_append.mpr ⟨before, List.forall_mem_singleton.mpr apart.takes⟩
  rcases h with ⟨ended, takes, sends⟩ | ⟨ended, earlier, d, later, rfl, takes, sends, since⟩
  · exact .inl ⟨apart.ended.trans ended, none takes, (quiet log).trans sends⟩
  · refine .inr ⟨apart.ended.trans ended, earlier, d, later ++ [e], by simp, takes, sends, ?_⟩
    constructor
    · exact since.takes
    · exact none since.only
    · rw [quiet, apart.undrained]
      exact since.found
    · rw [quiet]
      exact since.once
    · rw [quiet, apart.undrained]
      exact since.gone

/-- While the drain has the lock nobody else changes the map. -/
theorem callMove_apart {b b' : Bridge} {c : CallId} {fates : List Fate} (h : b.Scopes)
    (move : CallMove b c fates b') : Apart b b' ⟨b, .call c fates, (), b'⟩ := by
  have m := callMove_moves move
  constructor
  · simp only [takesDrain, m.reader]
    cases b.reader <;> rfl
  · rfl
  · rw [m.reader]
  · simp only [undrained, m.reader]
    cases hpc : b.reader with
    | draining =>
      cases move with
      | insert pc =>
        have mine : b.inPending .reader := by simp [inPending, hpc, ReaderThread.inPending]
        have its : b.inPending (.call c) := by simp [inPending, pc, CallPc.inPending]
        cases h.pending.unique mine its
      | _ => rfl
    | _ => rfl

/-- A step of the reader thread that neither begins nor serves the drain. -/
theorem threadMove_drainLog {log : BridgeLog} {b b' : Bridge} (d : DrainLog log b)
    (move : ThreadMove b b') : DrainLog (log ++ [⟨b, .reader, (), b'⟩]) b' := by
  cases move with
  | reading pc | submit pc | unlink pc | error pc | lockPending pc | found pc | unknown pc
  | deliver pc =>
    apply d.apart
    constructor
    · simp only [takesDrain, pc]
    · rfl
    · simp only [pc, ReaderThread.ended]
    · simp only [undrained, pc]
  | lockDrain pc free =>
    rcases d with ⟨-, takes, sends⟩ | ⟨ended, -⟩
    · refine .inr ⟨rfl, log, _, [], rfl, takes, sends, ?_⟩
      constructor
      · simp only [takesDrain, pc]
      · simp
      · intro k c
        simp [drainSends, undrained]
      · simp [drainSends]
      · simp [drainSends]
    · simp [pc, ReaderThread.ended] at ended
  | drained pc empty =>
    apply d.apart
    constructor
    · simp only [takesDrain, pc]
    · rfl
    · simp only [pc, ReaderThread.ended]
    · simp only [undrained, pc, empty]

theorem drain_drainLog {log : BridgeLog} {b b' : Bridge} {k : UInt32} {tx : CallId}
    (d : DrainLog log b) (pc : b.reader = .draining) (lookup : b.pending.lookup k = some tx)
    (reader : b'.reader = b.reader) (pending : b'.pending = b.pending.erase k) :
    DrainLog (log ++ [⟨b, .drain k, (), b'⟩]) b' := by
  rcases d with ⟨ended, -⟩ | ⟨-, earlier, e, later, rfl, takes, sends, since⟩
  · simp [pc, ReaderThread.ended] at ended
  · have rest : b.undrained = b.pending := by simp only [undrained, pc]
    have rest' : b'.undrained = b.pending.erase k := by
      simp only [undrained, reader, pc, pending]
    have sent : drainSends (later ++ [⟨b, .drain k, (), b'⟩]) = drainSends later ++ [(k, tx)] := by
      simp [drainSends, drainSend, lookup]
    have found := since.found
    have gone := since.gone
    rw [rest] at found gone
    refine .inr ⟨by rw [reader, pc]; rfl, earlier, e, later ++ [⟨b, .drain k, (), b'⟩], by simp,
      takes, sends, ?_⟩
    constructor
    · exact since.takes
    · refine List.forall_mem_append.mpr ⟨since.only, List.forall_mem_singleton.mpr ?_⟩
      simp only [takesDrain, pc]
    · intro j c
      rw [found, sent, rest', Table.lookup_erase, List.mem_append, List.mem_singleton,
        Prod.mk.injEq]
      by_cases here : j = k
      · subst here
        rw [if_pos rfl, lookup]
        simp [eq_comm]
      · rw [if_neg here]
        simp [here]
    · rw [sent, List.map_append, List.nodup_append]
      refine ⟨since.once, by simp, ?_⟩
      intro j hj j' hj' same
      obtain ⟨⟨k', c⟩, mem, rfl⟩ := List.mem_map.mp hj
      obtain rfl : j' = k := by simpa using hj'
      have absent := gone k' c mem
      rw [show k' = j' from same, lookup] at absent
      cases absent
    · intro j c mem
      rw [sent] at mem
      rw [rest', Table.lookup_erase]
      rcases List.mem_append.mp mem with mem | mem
      · rw [gone j c mem, ite_self]
      · obtain ⟨rfl, rfl⟩ : j = k ∧ c = tx := by simpa using mem
        rw [if_pos rfl]

theorem drainLog_step {log : BridgeLog} {b b' : Bridge} {a : Action} (h : b.Scopes)
    (d : DrainLog log b) (step : b.step a = some b') : DrainLog (log ++ [⟨b, a, (), b'⟩]) b' := by
  have quiet (reader : b'.reader = b.reader) (pending : b'.pending = b.pending)
      (sends : drainSend ⟨b, a, (), b'⟩ = none) : DrainLog (log ++ [⟨b, a, (), b'⟩]) b' := by
    apply d.apart
    constructor
    · simp only [takesDrain, reader]
      cases b.reader <;> rfl
    · exact sends
    · rw [reader]
    · simp only [undrained, reader, pending]
  cases step_cases step with
  | start | deliver | close => exact quiet rfl rfl rfl
  | call move => exact d.apart (callMove_apart h move)
  | reader move => exact threadMove_drainLog d move
  | drain pc lookup send => exact drain_drainLog d pc lookup rfl rfl

theorem drainLog_of_run {start b : Bridge} {log : BridgeLog} (h : start.Scopes)
    (fresh : start.reader.ended = false) (run : Logged perform start log b) : DrainLog log b := by
  have both := run.invariant (fun log b => b.Scopes ∧ DrainLog log b) ?_ ?_
  · exact both.2
  · exact ⟨h, .inl ⟨fresh, by simp, rfl⟩⟩
  · rintro log s a o t ⟨h, d⟩ move
    have step := perform_cases move
    exact ⟨scopes_step h step, drainLog_step h d step⟩

/-- The drain finds the channel of a call unused, and leaves one error in it. -/
theorem drainSend_unused {b b' : Bridge} {a : Action} (f : b.Fresh) (step : b.step a = some b')
    {k : UInt32} {c : CallId} (sent : drainSend ⟨b, a, (), b'⟩ = some (k, c)) :
    (b.calls c).Unused ∧
      b'.calls c = { b.calls c with channel := [.error readerTerminated], sends := 1 } := by
  cases a with
  | drain j =>
    obtain ⟨tx, call, pc, lookup, send, rfl⟩ := drainStep_cases step
    obtain ⟨rfl, rfl⟩ : j = k ∧ tx = c := by simpa [drainSend, lookup] using sent
    have unused := (f.held j tx lookup).2
    rw [f.send_some (.inl ⟨j, lookup⟩)] at send
    refine ⟨unused, ?_⟩
    obtain rfl := Option.some.inj send
    show (b.setCall tx _).calls tx = _
    rw [setCall_calls_self, unused.2]
  | _ => cases sent

theorem empty_at_end {b b' : Bridge} {a : Action} (step : b.step a = some b')
    (before : b.reader = .draining) (after : b'.reader = .finished) :
    b.pending = ∅ ∧ b'.pending = ∅ := by
  have moved : b'.reader ≠ b.reader := by
    rw [before, after]
    rintro ⟨⟩
  cases step_cases step with
  | start | drain | deliver | close => exact absurd rfl moved
  | call move => exact absurd (callMove_moves move).reader moved
  | reader move =>
    cases move with
    | drained pc empty => exact ⟨empty, empty⟩
    | reading pc | submit pc | unlink pc | error pc | lockPending pc | found pc | unknown pc
    | deliver pc | lockDrain pc => simp [before] at pc

/-- A call that panics has neither of the mutexes that the reader thread takes. -/
theorem Scopes.panic_holds_nothing {b b' : Bridge} {a : Action} (h : b.Scopes)
    (step : b.step a = some b') {c : CallId} (before : (b.calls c).pc ≠ .panicked)
    (after : (b'.calls c).pc = .panicked) {m : Mutex} (inner : m ≠ .writer) :
    b.holder m ≠ some (.call c) := by
  have place : (b.calls c).pc = .lockWriter ∨ (b.calls c).pc = .sendSubmit := by
    cases step_callChange step c with
    | same calls | sent _ _ _ calls =>
      rw [calls] at after
      exact absurd after before
    | started idle calls =>
      rw [calls] at after
      cases after
    | moved move =>
      cases move with
      | poisoned pc => exact .inl pc
      | panicked pc => exact .inr pc
      | writing => exact absurd after before
      | _ => simp [setCall] at after
  intro held
  cases m with
  | writer => exact inner rfl
  | shared =>
    have sending := (h.shared_call held).1
    rcases place with pc | pc <;> simp [pc] at sending
  | pending =>
    obtain ⟨k, inserting⟩ := h.pending_call held
    rcases place with pc | pc <;> simp [pc] at inserting

/-! ## The end -/

instance (pc : ReaderThread) : Decidable (pc = .finished) :=
  match pc with
  | .finished => isTrue rfl
  | .receiving | .lockPending _ | .remove _ | .deliver .. | .lockDrain | .draining =>
    isFalse (by simp)

theorem goes_on {b : Bridge} (h : b.Scopes) (f : b.Fresh) (closed : b.split.closed ≠ none) :
    b.reader = .finished ∨ b.Enabled .reader ∨ b.Behind .reader := by
  rcases h.reader_cases f with enabled | ⟨_, open_, _⟩ | finished | behind
  · exact .inr (.inl enabled)
  · exact absurd open_ closed
  · exact .inl finished
  · exact .inr (.inr behind)

/-- The mutexes that calls hold, weighted with what their release can add. -/
def callLocks (b : Bridge) : ℕ :=
  (match b.pendingLock with
    | some (.call _) => 2
    | _ => 0) +
  match b.split.lock with
    | some .writer => 1
    | _ => 0

theorem reader_callLocks_le {b b' : Bridge} {a : Action} (mine : a.ofReader = true)
    (step : b.step a = some b') : b'.callLocks ≤ b.callLocks := by
  cases step_cases step with
  | start | call | deliver | close => cases mine
  | drain => exact Nat.le_refl _
  | reader move =>
    cases move with
    | reading pc read =>
      cases Split.readerStep_cases read with
      | lockSubmit at_ free | lockUnlink at_ free => simp [callLocks, free]
      | unknownSeqnum | removeSubmit | removeUnlink => simp [callLocks]
      | _ => exact Nat.le_refl _
    | submit pc take | unlink pc take | error pc take =>
      obtain ⟨_, rfl⟩ := Split.takeResponse_cases take
      exact Nat.le_refl _
    | lockPending pc free | lockDrain pc free => simp [callLocks, free]
    | found | unknown | drained => simp [callLocks]
    | deliver => exact Nat.le_refl _

theorem reader_keeps_closed {b b' : Bridge} {a : Action} (mine : a.ofReader = true)
    (step : b.step a = some b') : b'.split.closed = b.split.closed := by
  cases step_cases step with
  | start | call | deliver | close => cases mine
  | drain => rfl
  | reader move =>
    cases move with
    | reading pc read => cases Split.readerStep_cases read <;> rfl
    | submit pc take | unlink pc take | error pc take =>
      obtain ⟨_, rfl⟩ := Split.takeResponse_cases take
      rfl
    | _ => rfl

/-- The call that the reader thread waits for releases the mutex in its next step. -/
theorem Scopes.release {b : Bridge} (h : b.Scopes) (behind : b.Behind .reader) :
    ∃ c b', b.step (.call c []) = some b' ∧ b'.fuel + b'.callLocks < b.fuel + b.callLocks ∧
      b'.split.closed = b.split.closed := by
  obtain ⟨m, u, inner, waits, held, enabled⟩ := behind
  cases u with
  | reader => exact absurd (h.ordered _ _ _ held waits) (Nat.lt_irrefl _)
  | call c =>
    obtain ⟨b', step⟩ := Option.isSome_iff_exists.mp (enabled [])
    have move := callStep_cases step
    have fuel := fuel_call move
    refine ⟨c, b', step, ?_, (callMove_keeps move).2⟩
    cases m with
    | writer => exact absurd rfl inner
    | shared =>
      obtain ⟨pc, inside⟩ := h.shared_call held
      have locked : b.split.lock = some .writer := (h.shared .writer).mpr inside
      cases move with
      | writing _ write =>
        simp only [inserts, pc, Bool.false_eq_true, if_false, Nat.add_zero] at fuel
        cases Split.writerStep_cases write with
        | insert | remove =>
          simp only [callLocks, locked]
          omega
        | lockInsert at_ | written at_ | failed at_ | lockRemove at_ =>
          simp [at_, WriterPc.inShared] at inside
      | written _ collect | failed _ collect =>
        obtain ⟨at_, -⟩ := Split.collect_cases collect
        simp [at_, WriterPc.inShared] at inside
      | poisoned other | lockWriter other | allocated other | panicked other | lockPending other
      | insert other | unlockWriter other | received other | disconnected other =>
        simp [pc] at other
    | pending =>
      obtain ⟨k, pc⟩ := h.pending_call held
      have locked : b.pendingLock = some (.call c) :=
        (h.pending (.call c)).mpr (by simp [inPending, pc, CallPc.inPending])
      cases move with
      | insert =>
        simp only [inserts, pc, if_true] at fuel
        simp only [callLocks, locked, setCall] at fuel ⊢
        omega
      | poisoned other | lockWriter other | allocated other | panicked other | writing other
      | written other | failed other | lockPending other | unlockWriter other | received other
      | disconnected other => simp [pc] at other

/-- After the end of the stream, the reader thread finishes with its own steps and those
of the calls that hold what it waits for. -/
theorem reader_finishes {b : Bridge} (h : b.Scopes) (f : b.Fresh)
    (closed : b.split.closed ≠ none) :
    ∃ as b', (∀ a ∈ as, a.ofReader = true ∨ ∃ c, a = .call c []) ∧
      exec Bridge.step b as = some b' ∧ b'.reader = .finished := by
  have progress : ∀ b : Bridge, b.Scopes ∧ b.Fresh ∧ b.split.closed ≠ none →
      b.reader = .finished ∨
        ∃ a b', (a.ofReader = true ∨ ∃ c, a = .call c []) ∧ b.step a = some b' ∧
          (b'.Scopes ∧ b'.Fresh ∧ b'.split.closed ≠ none) ∧
            b'.fuel + b'.callLocks < b.fuel + b.callLocks := by
    rintro b ⟨h, f, closed⟩
    rcases goes_on h f closed with finished | enabled | behind
    · exact .inl finished
    · obtain ⟨a, b', mine, step⟩ := enabled.reader_step
      have less := h.fuel_lt mine step
      have locks := reader_callLocks_le mine step
      refine .inr ⟨a, b', .inl mine, step, ⟨?_, ?_, ?_⟩, by omega⟩
      · exact scopes_step h step
      · exact fresh_step f step
      · rwa [reader_keeps_closed mine step]
    · obtain ⟨c, b', step, less, same⟩ := h.release behind
      refine .inr ⟨_, b', .inr ⟨c, rfl⟩, step, ⟨?_, ?_, ?_⟩, less⟩
      · exact scopes_step h step
      · exact fresh_step f step
      · rwa [same]
  obtain ⟨as, b', mine, run, -, finished⟩ :=
    exec_to_goal Bridge.step _ _ _ (fun b => b.fuel + b.callLocks) progress ⟨h, f, closed⟩
  exact ⟨as, b', mine, run, finished⟩

/-- What the log of a run tells about the reader thread: every `Ok` of `recv` has used
up a header, and nothing is read after the first `Err`; no block that is read makes the
decoding panic, and no mutex that the thread takes is ever poisoned; there is one drain,
after the loop, which serves each sender it finds in the map once, on a channel that was
never used, and leaves the map empty when it gives up the lock. No send waits, the steps
are bounded, and after the end of the stream the thread can go on until it has finished. -/
structure EndsCleanly (log : BridgeLog) (b : Bridge) : Prop where
  recvs : log.countP recvOk ≤ (delivered log).length / 48
  silent : log.Pairwise fun e f => recvErr e = true → ¬ Reads f
  decodes : ∀ e ∈ log, Reads e → e.before.split.reader = .header →
    48 ≤ e.before.split.arrived.length →
      decodeHeader (e.before.split.arrived.take 48) =
        some (parseHeader (e.before.split.arrived.take 48))
  unpoisoned : ∀ e ∈ log, ∀ c, (e.before.calls c).pc ≠ .panicked →
    (e.after.calls c).pc = .panicked → ∀ m, m ≠ .writer → e.before.holder m ≠ some (.call c)
  undrained : b.reader.ended = false → (∀ e ∈ log, takesDrain e = false) ∧ drainSends log = []
  drained : b.reader.ended = true → ∃ earlier e later, log = earlier ++ e :: later ∧
    takesDrain e = true ∧ (∀ f ∈ earlier ++ later, takesDrain f = false) ∧
    drainSends earlier = [] ∧ ((drainSends later).map Prod.snd).Nodup ∧
    (∀ k c, (k, c) ∈ drainSends later → e.before.pending.lookup k = some c) ∧
    (b.reader = .finished →
      ∀ k c, e.before.pending.lookup k = some c → (k, c) ∈ drainSends later)
  unused : ∀ e ∈ log, ∀ k c, drainSend e = some (k, c) → (e.before.calls c).Unused ∧
    e.after.calls c = { e.before.calls c with channel := [.error readerTerminated], sends := 1 }
  emptied : ∀ e ∈ log, e.before.reader = .draining → e.after.reader = .finished →
    e.before.pendingLock = some .reader ∧ e.before.pending = ∅ ∧ e.after.pending = ∅
  delivers : ∀ ret c, b.reader = .deliver ret c → b.readerStep.isSome
  drains : b.reader = .draining → ∀ k c, b.pending.lookup k = some c → (b.drainStep k).isSome
  steps : log.countP (fun e => e.action.ofReader) ≤
    (delivered log).length + log.countP inserts + 4
  goesOn : b.split.closed ≠ none → b.reader = .finished ∨ b.Enabled .reader ∨ b.Behind .reader
  finishes : b.split.closed ≠ none → ∃ as b',
    (∀ a ∈ as, a.ofReader = true ∨ ∃ c, a = .call c []) ∧ exec Bridge.step b as = some b' ∧
      b'.reader = .finished

/-- The senders that the drain has served are different ones. -/
theorem DrainedSince.senders_nodup {b : Bridge} {e : BridgeEntry} {later : BridgeLog}
    (since : b.DrainedSince e later) (f : e.before.Fresh) :
    ((drainSends later).map Prod.snd).Nodup := by
  have pairs : (drainSends later).Nodup := since.once.of_map
  refine pairs.map_on ?_
  rintro ⟨j, c⟩ hj ⟨k, _⟩ hk rfl
  have same := f.once j k c ((since.found j c).mpr (.inl hj)) ((since.found k c).mpr (.inl hk))
  rw [same]

section Runs

variable {build : Build} {c : UsbipConnection} {b : Bridge} {log : BridgeLog}

theorem entries_fit (run : Logged perform (new (.ofConnection build c)) log b) :
    ∀ e ∈ log, e.before.Scopes ∧ e.before.Fresh ∧ e.before.step e.action = some e.after := by
  have invariants := run.holds_before (fun b => b.Scopes ∧ b.Fresh)
    ⟨scopes_new _ rfl rfl rfl, fresh_new _⟩ (by
      rintro s a o t ⟨h, f⟩ move
      have step := perform_cases move
      exact ⟨scopes_step h step, fresh_step f step⟩)
  intro e he
  obtain ⟨h, f⟩ := invariants e he
  exact ⟨h, f, perform_cases (run.performed e he)⟩

/-- Whatever the server sends and however many calls are made meanwhile. -/
theorem reader_thread_ends (run : Logged perform (new (.ofConnection build c)) log b) :
    EndsCleanly log b := by
  have reached := reaches_of_logged run
  have h := scopes_reachable reached
  have f := fresh_reachable reached
  have entries := entries_fit run
  have drain := drainLog_of_run (scopes_new _ rfl rfl rfl) rfl run
  constructor
  · have uses := recvs_le rfl rfl run
    omega
  · exact silent_after_error run
  · intro e _ _ _ enough
    exact decodeHeader_eq (List.length_take_of_le enough)
  · intro e he d before after m inner
    obtain ⟨h, -, step⟩ := entries e he
    exact h.panic_holds_nothing step before after inner
  · intro loop
    rcases drain with ⟨-, takes, sends⟩ | ⟨ended, -⟩
    · exact ⟨takes, sends⟩
    · rw [loop] at ended
      cases ended
  · intro ended
    rcases drain with ⟨loop, -⟩ | ⟨-, earlier, e, later, rfl, takes, sends, since⟩
    · rw [ended] at loop
      cases loop
    · obtain ⟨-, fresh, -⟩ := entries e (by simp)
      have others := List.forall_mem_append.mpr ⟨takes, since.only⟩
      refine ⟨earlier, e, later, rfl, since.takes, others, sends, since.senders_nodup fresh, ?_, ?_⟩
      · intro k c mem
        exact (since.found k c).mpr (.inl mem)
      · intro finished k c lookup
        rcases (since.found k c).mp lookup with mem | rest
        · exact mem
        · simp [undrained, finished] at rest
  · intro e he k d sent
    obtain ⟨-, fresh, step⟩ := entries e he
    exact drainSend_unused fresh step sent
  · intro e he before after
    obtain ⟨h, -, step⟩ := entries e he
    refine ⟨(h.pending .reader).mpr ?_, empty_at_end step before after⟩
    simp [inPending, before, ReaderThread.inPending]
  · intro ret d pc
    simp only [readerStep, pc, f.send_some (.inr ⟨ret, pc⟩), Option.map_some]
    rfl
  · intro pc k d lookup
    simp only [drainStep, pc, lookup, f.send_some (.inl ⟨k, lookup⟩), Option.map_some]
    rfl
  · have bounded := readerSteps_le (scopes_new _ rfl rfl rfl) run
    have start : (new (.ofConnection build c)).fuel = 4 := rfl
    omega
  · exact goes_on h f
  · exact reader_finishes h f

end Runs

/-- The stream ends while call 0 waits, which gets the error. -/
theorem reader_thread_ends_waiting : ∃ log b, EndsCleanly log b ∧ b.reader = .finished ∧
    (b.calls 0).channel = [.error readerTerminated] := by
  obtain ⟨b, run, found⟩ := Reaches.of_exec_any step always_of_anyStep device
    (sendFirst ++ insertFirst ++
      [.close ⟨.unexpectedEof, "failed to fill whole buffer"⟩] ++ List.replicate 3 .reader ++
      [.drain 1, .reader])
    (fun b => decide (b.reader = .finished ∧ (b.calls 0).channel = [.error readerTerminated]))
    (by decide +kernel)
  obtain ⟨finished, channel⟩ := of_decide_eq_true found
  obtain ⟨log, logged⟩ := Logged.of_reaches run
  exact ⟨log, b, reader_thread_ends logged, finished, channel⟩

end Bridge

end UsbipDevirt
