import Mathlib.Logic.Function.Basic
import UsbipDevirt.Split

/-!
# The bridge

`UsbipBridge::submit`, called by any number of threads, and the one
`reader_thread` that answers them. Each call has a channel of capacity 1 whose
sender it leaves in `bridge.pending` under the sequence number of its command.
Both sides are broken up at every mutex, at the socket and at the channel.
`Bridge.Action` lists the steps; their order is free.
-/

namespace UsbipDevirt

/-- The arguments of `UsbipBridge::submit`. -/
structure UrbRequest where
  ep : UInt32
  direction : Direction
  setup : List.Vector UInt8 8
  data : List UInt8
  transferBufferLength : UInt32
  deriving DecidableEq

/-- What `submit` passes on to `send_submit`. -/
def UrbRequest.args (request : UrbRequest) : SubmitArgs where
  ep := request.ep
  direction := request.direction
  transferFlags := 0
  transferBufferLength := request.transferBufferLength
  setup := request.setup
  data := request.data
  interval := 0

abbrev CallId := ℕ

/-- Where a call of `submit` stands. -/
inductive CallPc where
  | idle
  | lockWriter
  | sendSubmit
  | sending
  | lockPending (seqnum : UInt32)
  | insert (seqnum : UInt32)
  | unlockWriter
  | recv
  | returned (result : Except IoError RetSubmit)
  | panicked

/-- A call and its channel. The last three fields record the number it was
given, whether its write succeeded, and how many messages were sent to it. -/
structure Call where
  request : UrbRequest
  pc : CallPc
  channel : List (Except IoError RetSubmit)
  seqnum : Option UInt32
  wrote : Bool
  sends : ℕ

/-- An identifier that is not in use. -/
def Call.idle : Call where
  request := ⟨0, .in, List.Vector.replicate 8 0, [], 0⟩
  pc := .idle
  channel := []
  seqnum := none
  wrote := false
  sends := 0

/-- Where `reader_thread` stands. -/
inductive ReaderThread where
  | receiving
  | lockPending (ret : RetSubmit)
  | remove (ret : RetSubmit)
  | deliver (ret : RetSubmit) (tx : CallId)
  | lockDrain
  | draining
  | finished

inductive PendingHolder where
  | call (c : CallId)
  | reader
  deriving DecidableEq

/-- `poisoned` is the state of the writer mutex after a panic under it.
`handled` records the RET_SUBMITs that the reader thread is done with. -/
structure Bridge where
  split : Split
  writer : Option CallId
  poisoned : Bool
  pending : Table UInt32 CallId
  pendingLock : Option PendingHolder
  calls : CallId → Call
  reader : ReaderThread
  handled : List RetSubmit

def readerDisconnected : IoError := ⟨.brokenPipe, "reader thread disconnected"⟩

def readerTerminated : IoError := ⟨.brokenPipe, "reader thread terminated"⟩

/-- The receiver is gone. -/
def CallPc.dropped : CallPc → Bool
  | .returned _ | .panicked => true
  | _ => false

/-- `tx.send` on a channel of capacity 1; `none` while the channel is full. A
message whose receiver is gone is dropped. -/
def Call.send (call : Call) (message : Except IoError RetSubmit) : Option Call :=
  if call.pc.dropped then some call
  else if call.channel = [] then
    some { call with channel := [message], sends := call.sends + 1 }
  else none

def ReaderThread.carries : ReaderThread → CallId → Bool
  | .deliver _ tx, c => tx = c
  | _, _ => false

namespace Bridge

/-- `UsbipBridge::new` with its reader thread just spawned. -/
def new (split : Split) : Bridge where
  split := split
  writer := none
  poisoned := false
  pending := ∅
  pendingLock := none
  calls := fun _ => .idle
  reader := .receiving
  handled := []

/-- The sender of a call that has given it away still exists. -/
def SenderHeld (b : Bridge) (c : CallId) : Prop :=
  b.pending.Holds c ∨ b.reader.carries c = true

instance (b : Bridge) (c : CallId) : Decidable (b.SenderHeld c) :=
  inferInstanceAs (Decidable (_ ∨ _))

def setCall (b : Bridge) (c : CallId) (call : Call) : Bridge :=
  { b with calls := Function.update b.calls c call }

/-- A thread enters `submit`. -/
def start (b : Bridge) (c : CallId) (request : UrbRequest) : Option Bridge :=
  match (b.calls c).pc with
  | .idle => some (b.setCall c { Call.idle with request, pc := .lockWriter })
  | _ => none

/-- The next step of a call; `fates` decides its socket write. -/
def callStep (b : Bridge) (c : CallId) (fates : List Fate) : Option Bridge :=
  let call := b.calls c
  match call.pc with
  | .lockWriter =>
    if b.writer = none then
      if b.poisoned then some (b.setCall c { call with pc := .panicked })
      else some { b.setCall c { call with pc := .sendSubmit } with writer := some c }
    else none
  | .sendSubmit =>
    match b.split.call (.submit call.request.args) with
    | none => none
    | some split =>
      match split.writer with
      | .lockInsert seqnum _ =>
        some { b.setCall c { call with pc := .sending, seqnum := some seqnum } with split }
      | _ =>
        -- the panic drops the guard and poisons the mutex
        some { b.setCall c { call with pc := .panicked } with
          split, writer := none, poisoned := true }
  | .sending =>
    match b.split.collect with
    | some (.ok seqnum, split) =>
      some { b.setCall c { call with pc := .lockPending seqnum, wrote := true } with split }
    | some (.error e, split) =>
      some { b.setCall c { call with pc := .returned (.error e) } with split, writer := none }
    | none => (b.split.writerStep fates).map fun split => { b with split }
  | .lockPending seqnum =>
    if b.pendingLock = none then
      some { b.setCall c { call with pc := .insert seqnum } with pendingLock := some (.call c) }
    else none
  | .insert seqnum =>
    some { b.setCall c { call with pc := .unlockWriter } with
      pending := b.pending.insert seqnum c, pendingLock := none }
  | .unlockWriter => some { b.setCall c { call with pc := .recv } with writer := none }
  | .recv =>
    match call.channel with
    | message :: rest =>
      some (b.setCall c { call with pc := .returned message, channel := rest })
    | [] =>
      if b.SenderHeld c then none
      else some (b.setCall c { call with pc := .returned (.error readerDisconnected) })
  | .idle | .returned _ | .panicked => none

/-- The next step of the reader thread, the sweep of the drain apart. -/
def readerStep (b : Bridge) : Option Bridge :=
  match b.reader with
  | .receiving =>
    match b.split.takeResponse with
    | some (.ok (.submit ret), split) => some { b with split, reader := .lockPending ret }
    | some (.ok (.unlink _), split) => some { b with split }
    | some (.error _, split) => some { b with split, reader := .lockDrain }
    | none => b.split.readerStep.map fun split => { b with split }
  | .lockPending ret =>
    if b.pendingLock = none then
      some { b with pendingLock := some .reader, reader := .remove ret }
    else none
  | .remove ret =>
    let pending := b.pending.erase ret.seqnum
    match b.pending.lookup ret.seqnum with
    | some tx => some { b with pending, pendingLock := none, reader := .deliver ret tx }
    | none =>
      some { b with
        pending, pendingLock := none, reader := .receiving, handled := b.handled ++ [ret] }
  | .deliver ret tx =>
    ((b.calls tx).send (.ok ret)).map fun call =>
      { b.setCall tx call with reader := .receiving, handled := b.handled ++ [ret] }
  | .lockDrain =>
    if b.pendingLock = none then some { b with pendingLock := some .reader, reader := .draining }
    else none
  | .draining =>
    if b.pending = ∅ then some { b with pendingLock := none, reader := .finished } else none
  | .finished => none

/-- The drain reaches one entry; it may take them in any order. -/
def drainStep (b : Bridge) (seqnum : UInt32) : Option Bridge :=
  match b.reader, b.pending.lookup seqnum with
  | .draining, some tx =>
    ((b.calls tx).send (.error readerTerminated)).map fun call =>
      { b.setCall tx call with pending := b.pending.erase seqnum }
  | _, _ => none

inductive Action where
  | start (c : CallId) (request : UrbRequest)
  | call (c : CallId) (fates : List Fate)
  | reader
  | drain (seqnum : UInt32)
  | deliver (bytes : List UInt8)
  | close (e : IoError)

def step (b : Bridge) : Action → Option Bridge
  | .start c request => b.start c request
  | .call c fates => b.callStep c fates
  | .reader => b.readerStep
  | .drain seqnum => b.drainStep seqnum
  | .deliver bytes => (b.split.deliver bytes).map fun split => { b with split }
  | .close e => (b.split.close e).map fun split => { b with split }

/-! ## What one step can do -/

/-- One constructor for each step of a call. -/
inductive CallMove (b : Bridge) (c : CallId) (fates : List Fate) : Bridge → Prop where
  | poisoned (pc : (b.calls c).pc = .lockWriter) (free : b.writer = none) :
      CallMove b c fates (b.setCall c { b.calls c with pc := .panicked })
  | lockWriter (pc : (b.calls c).pc = .lockWriter) (free : b.writer = none) :
      CallMove b c fates
        { b.setCall c { b.calls c with pc := .sendSubmit } with writer := some c }
  | allocated {split seqnum cmd} (pc : (b.calls c).pc = .sendSubmit)
      (call : b.split.call (.submit (b.calls c).request.args) = some split)
      (writer : split.writer = .lockInsert seqnum cmd) :
      CallMove b c fates
        { b.setCall c { b.calls c with pc := .sending, seqnum := some seqnum } with split }
  | panicked {split} (pc : (b.calls c).pc = .sendSubmit)
      (call : b.split.call (.submit (b.calls c).request.args) = some split)
      (writer : ∀ seqnum cmd, split.writer ≠ .lockInsert seqnum cmd) :
      CallMove b c fates
        { b.setCall c { b.calls c with pc := .panicked } with
          split, writer := none, poisoned := true }
  | writing {split} (pc : (b.calls c).pc = .sending)
      (step : b.split.writerStep fates = some split) : CallMove b c fates { b with split }
  | written {split seqnum} (pc : (b.calls c).pc = .sending)
      (collect : b.split.collect = some (.ok seqnum, split)) :
      CallMove b c fates
        { b.setCall c { b.calls c with pc := .lockPending seqnum, wrote := true } with split }
  | failed {split e} (pc : (b.calls c).pc = .sending)
      (collect : b.split.collect = some (.error e, split)) :
      CallMove b c fates
        { b.setCall c { b.calls c with pc := .returned (.error e) } with split, writer := none }
  | lockPending {seqnum} (pc : (b.calls c).pc = .lockPending seqnum) (free : b.pendingLock = none) :
      CallMove b c fates
        { b.setCall c { b.calls c with pc := .insert seqnum } with pendingLock := some (.call c) }
  | insert {seqnum} (pc : (b.calls c).pc = .insert seqnum) :
      CallMove b c fates
        { b.setCall c { b.calls c with pc := .unlockWriter } with
          pending := b.pending.insert seqnum c, pendingLock := none }
  | unlockWriter (pc : (b.calls c).pc = .unlockWriter) :
      CallMove b c fates { b.setCall c { b.calls c with pc := .recv } with writer := none }
  | received {message rest} (pc : (b.calls c).pc = .recv)
      (channel : (b.calls c).channel = message :: rest) :
      CallMove b c fates
        (b.setCall c { b.calls c with pc := .returned message, channel := rest })
  | disconnected (pc : (b.calls c).pc = .recv) (channel : (b.calls c).channel = [])
      (gone : ¬ b.SenderHeld c) :
      CallMove b c fates
        (b.setCall c { b.calls c with pc := .returned (.error readerDisconnected) })

theorem callStep_cases {b b' : Bridge} {c : CallId} {fates : List Fate}
    (h : b.callStep c fates = some b') : CallMove b c fates b' := by
  unfold callStep at h
  dsimp only at h
  split at h
  · next hpc =>
    split at h
    · next hfree =>
      split at h
      · exact Option.some.inj h ▸ .poisoned hpc hfree
      · exact Option.some.inj h ▸ .lockWriter hpc hfree
    · cases h
  · next hpc =>
    split at h
    · cases h
    · next split hcall =>
      split at h
      · next hwriter => exact Option.some.inj h ▸ .allocated hpc hcall hwriter
      · next hwriter => exact Option.some.inj h ▸ .panicked hpc hcall hwriter
  · next hpc =>
    split at h
    · next hcollect => exact Option.some.inj h ▸ .written hpc hcollect
    · next hcollect => exact Option.some.inj h ▸ .failed hpc hcollect
    · obtain ⟨split, hstep, rfl⟩ := Option.map_eq_some_iff.mp h
      exact .writing hpc hstep
  · next hpc =>
    split at h
    · next hfree => exact Option.some.inj h ▸ .lockPending hpc hfree
    · cases h
  · next hpc => exact Option.some.inj h ▸ .insert hpc
  · next hpc => exact Option.some.inj h ▸ .unlockWriter hpc
  · next hpc =>
    split at h
    · next hchannel => exact Option.some.inj h ▸ .received hpc hchannel
    · next hchannel =>
      split at h
      · cases h
      · next hgone => exact Option.some.inj h ▸ .disconnected hpc hchannel hgone
  · cases h
  · cases h
  · cases h

/-- One constructor for each step of the reader thread. -/
inductive ThreadMove (b : Bridge) : Bridge → Prop where
  | reading {split} (pc : b.reader = .receiving) (step : b.split.readerStep = some split) :
      ThreadMove b { b with split }
  | submit {split ret} (pc : b.reader = .receiving)
      (take : b.split.takeResponse = some (.ok (.submit ret), split)) :
      ThreadMove b { b with split, reader := .lockPending ret }
  | unlink {split ret} (pc : b.reader = .receiving)
      (take : b.split.takeResponse = some (.ok (.unlink ret), split)) :
      ThreadMove b { b with split }
  | error {split e} (pc : b.reader = .receiving)
      (take : b.split.takeResponse = some (.error e, split)) :
      ThreadMove b { b with split, reader := .lockDrain }
  | lockPending {ret} (pc : b.reader = .lockPending ret) (free : b.pendingLock = none) :
      ThreadMove b { b with pendingLock := some .reader, reader := .remove ret }
  | found {ret tx} (pc : b.reader = .remove ret)
      (lookup : b.pending.lookup ret.seqnum = some tx) :
      ThreadMove b { b with
        pending := b.pending.erase ret.seqnum, pendingLock := none, reader := .deliver ret tx }
  | unknown {ret} (pc : b.reader = .remove ret) (lookup : b.pending.lookup ret.seqnum = none) :
      ThreadMove b { b with
        pending := b.pending.erase ret.seqnum, pendingLock := none, reader := .receiving,
        handled := b.handled ++ [ret] }
  | deliver {ret tx call} (pc : b.reader = .deliver ret tx)
      (send : (b.calls tx).send (.ok ret) = some call) :
      ThreadMove b { b.setCall tx call with
        reader := .receiving, handled := b.handled ++ [ret] }
  | lockDrain (pc : b.reader = .lockDrain) (free : b.pendingLock = none) :
      ThreadMove b { b with pendingLock := some .reader, reader := .draining }
  | drained (pc : b.reader = .draining) (empty : b.pending = ∅) :
      ThreadMove b { b with pendingLock := none, reader := .finished }

theorem readerStep_cases {b b' : Bridge} (h : b.readerStep = some b') : ThreadMove b b' := by
  unfold readerStep at h
  split at h
  · next hpc =>
    split at h
    · next htake => exact Option.some.inj h ▸ .submit hpc htake
    · next htake => exact Option.some.inj h ▸ .unlink hpc htake
    · next htake => exact Option.some.inj h ▸ .error hpc htake
    · obtain ⟨split, hstep, rfl⟩ := Option.map_eq_some_iff.mp h
      exact .reading hpc hstep
  · next hpc =>
    split at h
    · next hfree => exact Option.some.inj h ▸ .lockPending hpc hfree
    · cases h
  · next hpc =>
    dsimp only at h
    split at h
    · next hlookup => exact Option.some.inj h ▸ .found hpc hlookup
    · next hlookup => exact Option.some.inj h ▸ .unknown hpc hlookup
  · next hpc =>
    obtain ⟨call, hsend, rfl⟩ := Option.map_eq_some_iff.mp h
    exact .deliver hpc hsend
  · next hpc =>
    split at h
    · next hfree => exact Option.some.inj h ▸ .lockDrain hpc hfree
    · cases h
  · next hpc =>
    split at h
    · next hempty => exact Option.some.inj h ▸ .drained hpc hempty
    · cases h
  · cases h

theorem drainStep_cases {b b' : Bridge} {seqnum : UInt32} (h : b.drainStep seqnum = some b') :
    ∃ tx call, b.reader = .draining ∧ b.pending.lookup seqnum = some tx ∧
      (b.calls tx).send (.error readerTerminated) = some call ∧
      b' = { b.setCall tx call with pending := b.pending.erase seqnum } := by
  unfold drainStep at h
  split at h
  · next hpc hlookup =>
    obtain ⟨call, hsend, rfl⟩ := Option.map_eq_some_iff.mp h
    exact ⟨_, call, hpc, hlookup, hsend, rfl⟩
  · cases h

theorem start_cases {b b' : Bridge} {c : CallId} {request : UrbRequest}
    (h : b.start c request = some b') :
    (b.calls c).pc = .idle ∧
      b' = b.setCall c { Call.idle with request, pc := .lockWriter } := by
  unfold start at h
  split at h
  · next hpc => exact ⟨hpc, (Option.some.inj h).symm⟩
  · cases h

theorem send_cases {call call' : Call} {message : Except IoError RetSubmit}
    (h : call.send message = some call') :
    (call.pc.dropped = true ∧ call' = call) ∨
      (call.pc.dropped = false ∧ call.channel = [] ∧
        call' = { call with channel := [message], sends := call.sends + 1 }) := by
  unfold Call.send at h
  split at h
  · next hd => exact .inl ⟨hd, (Option.some.inj h).symm⟩
  · next hd =>
    split at h
    · next hempty => exact .inr ⟨by simpa using hd, hempty, (Option.some.inj h).symm⟩
    · cases h

/-- One constructor for each action of the bridge and of its environment. -/
inductive BridgeMove (b : Bridge) : Action → Bridge → Prop where
  | start {c request} (idle : (b.calls c).pc = .idle) :
      BridgeMove b (.start c request) (b.setCall c { Call.idle with request, pc := .lockWriter })
  | call {c fates b'} (move : CallMove b c fates b') : BridgeMove b (.call c fates) b'
  | reader {b'} (move : ThreadMove b b') : BridgeMove b .reader b'
  | drain {seqnum tx call} (pc : b.reader = .draining) (lookup : b.pending.lookup seqnum = some tx)
      (send : (b.calls tx).send (.error readerTerminated) = some call) :
      BridgeMove b (.drain seqnum)
        { b.setCall tx call with pending := b.pending.erase seqnum }
  | deliver {bytes split} (step : b.split.deliver bytes = some split) :
      BridgeMove b (.deliver bytes) { b with split }
  | close {e split} (step : b.split.close e = some split) : BridgeMove b (.close e) { b with split }

theorem step_cases {b b' : Bridge} {a : Action} (h : b.step a = some b') : BridgeMove b a b' := by
  cases a with
  | start c request =>
    obtain ⟨idle, rfl⟩ := start_cases h
    exact .start idle
  | call c fates => exact .call (callStep_cases h)
  | reader => exact .reader (readerStep_cases h)
  | drain seqnum =>
    obtain ⟨tx, call, pc, lookup, send, rfl⟩ := drainStep_cases h
    exact .drain pc lookup send
  | deliver bytes =>
    obtain ⟨split, step, rfl⟩ := Option.map_eq_some_iff.mp h
    exact .deliver step
  | close e =>
    obtain ⟨split, step, rfl⟩ := Option.map_eq_some_iff.mp h
    exact .close step

/-! ## The bridge on its connection -/

/-- What the bridge does on its connection with an action of its own: what it
sends there is the request of a call, and that call decides its socket write. -/
structure OnSplit (b : Bridge) (a : Action) (a' : Split.Action) : Prop where
  sends : ∀ cmd, a' = .call cmd → ∃ c, (b.calls c).pc = .sendSubmit ∧
    cmd = .submit (b.calls c).request.args
  writes : ∀ fates, a' = .writer fates → ∃ c, a = .call c fates

/-- Every step of the bridge is one step of the connection under it, or none. -/
theorem step_split {b b' : Bridge} {a : Action} (h : b.step a = some b') :
    b'.split = b.split ∨ ∃ a', b.split.step a' = some b'.split ∧ b.OnSplit a a' := by
  cases step_cases h with
  | start | drain => exact .inl rfl
  | @call c fates _ move =>
    cases move with
    | allocated pc call | panicked pc call =>
      exact .inr ⟨.call _, call, fun _ h => ⟨c, pc, (Split.Action.call.inj h).symm⟩, nofun⟩
    | writing pc step =>
      exact .inr ⟨.writer fates, step, nofun, fun _ h => ⟨c, Split.Action.writer.inj h ▸ rfl⟩⟩
    | written pc collect => exact .inr ⟨.collect, by simp [Split.step, collect], nofun, nofun⟩
    | failed pc collect => exact .inr ⟨.collect, by simp [Split.step, collect], nofun, nofun⟩
    | _ => exact .inl rfl
  | reader move =>
    cases move with
    | reading pc step => exact .inr ⟨.reader, step, nofun, nofun⟩
    | submit pc take => exact .inr ⟨.takeResponse, by simp [Split.step, take], nofun, nofun⟩
    | unlink pc take => exact .inr ⟨.takeResponse, by simp [Split.step, take], nofun, nofun⟩
    | error pc take => exact .inr ⟨.takeResponse, by simp [Split.step, take], nofun, nofun⟩
    | _ => exact .inl rfl
  | deliver step => exact .inr ⟨.deliver _, step, nofun, nofun⟩
  | close step => exact .inr ⟨.close _, step, nofun, nofun⟩

end Bridge

end UsbipDevirt
