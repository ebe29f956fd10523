import UsbipDevirt.Bridge
import UsbipDevirt.SplitSafety

/-!
# Replies reach the right caller

One invariant ties together the counter, the two maps, every channel and the
position of every thread, for any number of calls in any order and for any
bytes from the server. A call is described by where it stands: what it owns,
and, once it has given its sender away, either that the sender is still held
for it or which single message was sent.
-/

namespace UsbipDevirt

/-- No number was allocated for the call. -/
def CallPc.unnumbered : CallPc → Bool
  | .idle | .lockWriter | .sendSubmit | .panicked => true
  | _ => false

/-- Holding the writer mutex. -/
def CallPc.guarded : CallPc → Bool
  | .sendSubmit | .sending | .lockPending _ | .insert _ | .unlockWriter => true
  | _ => false

/-- The sender is given away and no result is taken yet. -/
def CallPc.waiting : CallPc → Bool
  | .unlockWriter | .recv => true
  | _ => false

/-- The reader thread has left its loop. -/
def ReaderThread.ended : ReaderThread → Bool
  | .draining | .finished => true
  | _ => false

/-- The RET_SUBMIT in the hands of the reader thread. -/
def ReaderThread.carried : ReaderThread → List RetSubmit
  | .lockPending ret | .remove ret | .deliver ret _ => [ret]
  | _ => []

/-- The RET_SUBMIT that `recv` has decoded and not yet handed over. -/
def ReaderPc.result : ReaderPc → List RetSubmit
  | .returned (.ok (.submit ret)) => [ret]
  | _ => []

/-- A step of the reader half hands over nothing it has not just decoded. -/
theorem Split.readerStep_replies {s t : Split} (h : s.readerStep = some t) :
    s.reader.result = [] ∧ t.issued = s.issued ∧
      t.decoded.map Prod.snd = s.decoded.map Prod.snd ++ t.reader.result := by
  cases readerStep_cases h with
  | payload pc => simp [pc, ReaderPc.result, returnSubmit]
  | ended pc => rcases pc with pc | ⟨_, _, pc⟩ <;> simp [pc, ReaderPc.result]
  | submitHeader pc | unlinkHeader pc | unknownCommand pc | lockSubmit pc | unknownSeqnum pc
  | removeSubmit pc | lockUnlink pc | removeUnlink pc => simp [pc, ReaderPc.result]

def Call.Unused (call : Call) : Prop := call.channel = [] ∧ call.sends = 0

namespace Bridge

/-- The sender of `c` is kept under `k`, in the map or by the reader thread. -/
def Held (b : Bridge) (k : UInt32) (c : CallId) : Prop :=
  b.pending.lookup k = some c ∨ ∃ ret, b.reader = .deliver ret c ∧ ret.seqnum = k

/-- A message that a call with number `k` may find in its channel. -/
def Owed (b : Bridge) (k : UInt32) : Except IoError RetSubmit → Prop
  | .ok ret => ret.seqnum = k ∧ ret ∈ b.handled
  | .error _ => b.reader.ended = true

/-- What a call has done so far, by where it stands. -/
inductive Progress (b : Bridge) (c : CallId) (call : Call) : Prop where
  | unnumbered (pc : call.pc.unnumbered = true) (seqnum : call.seqnum = none)
      (unused : call.Unused) (wrote : call.wrote = false)
  | sending (pc : call.pc = .sending) (unused : call.Unused) (wrote : call.wrote = false)
  | registering {k : UInt32} (pc : call.pc = .lockPending k ∨ call.pc = .insert k)
      (seqnum : call.seqnum = some k) (unused : call.Unused) (wrote : call.wrote = true)
  | waiting {k : UInt32} (pc : call.pc.waiting = true) (seqnum : call.seqnum = some k)
      (unused : call.Unused) (wrote : call.wrote = true) (held : b.Held k c)
  | answered {k : UInt32} {message : Except IoError RetSubmit} (pc : call.pc.waiting = true)
      (seqnum : call.seqnum = some k) (channel : call.channel = [message]) (sends : call.sends = 1)
      (wrote : call.wrote = true) (owed : b.Owed k message)
  | failed {e : IoError} (pc : call.pc = .returned (.error e)) (unused : call.Unused)
      (wrote : call.wrote = false)
  | returned {k : UInt32} {result : Except IoError RetSubmit} (pc : call.pc = .returned result)
      (seqnum : call.seqnum = some k) (channel : call.channel = []) (sends : call.sends = 1)
      (wrote : call.wrote = true) (owed : b.Owed k result)

structure Inv (b : Bridge) : Prop where
  split : b.split.Inv
  numbered : ∀ c k, (b.calls c).seqnum = some k →
    IssuedAs b.split.issued k (.submit (b.calls c).request.args)
  own : ∀ c d k, (b.calls c).seqnum = some k → (b.calls d).seqnum = some k → c = d
  mutex : ∀ c, (b.calls c).pc.guarded = true → b.writer = some c
  sending : ∀ c, (b.calls c).pc = .sending →
    ∃ n, b.split.issued.length = n + 1 ∧ (b.calls c).seqnum = some (keyAt n)
  progress : ∀ c, b.Progress c (b.calls c)
  held : ∀ k c, b.Held k c →
    (b.calls c).seqnum = some k ∧ (b.calls c).pc.waiting = true ∧ (b.calls c).Unused
  apart : ∀ ret tx, b.reader = .deliver ret tx → b.pending.lookup ret.seqnum = none
  replies : b.split.decoded.map Prod.snd = b.handled ++ b.reader.carried ++ b.split.reader.result

/-! ## Consequences -/

theorem Inv.decoded_seqnums_nodup {b : Bridge} (h : b.Inv) :
    (b.split.decoded.map (·.2.seqnum)).Nodup :=
  (List.nodup_append.mp h.split.once).1

theorem Inv.replies_nodup {b : Bridge} (h : b.Inv) :
    ((b.handled ++ b.reader.carried).map (·.seqnum)).Nodup := by
  have all : b.split.decoded.map (·.2.seqnum) =
      (b.handled ++ b.reader.carried ++ b.split.reader.result).map (·.seqnum) := by
    rw [← h.replies, List.map_map]
    rfl
  have := all ▸ h.decoded_seqnums_nodup
  rw [List.map_append] at this
  exact (List.nodup_append.mp this).1

theorem Inv.handled_decoded {b : Bridge} (h : b.Inv) {ret : RetSubmit} (hret : ret ∈ b.handled) :
    ∃ header, (header, ret) ∈ b.split.decoded := by
  have : ret ∈ b.split.decoded.map Prod.snd := by
    rw [h.replies]
    exact List.mem_append_left _ (List.mem_append_left _ hret)
  obtain ⟨⟨header, _⟩, hmem, rfl⟩ := List.mem_map.mp this
  exact ⟨header, hmem⟩

/-! ## Steps of a call -/

theorem Progress.frame {b b' : Bridge} {c : CallId} {call : Call} (h : b.Progress c call)
    (held : ∀ k, b.Held k c → b'.Held k c) (handled : ∀ ret ∈ b.handled, ret ∈ b'.handled)
    (ended : b.reader.ended = true → b'.reader.ended = true) : b'.Progress c call := by
  have owed : ∀ k message, b.Owed k message → b'.Owed k message := by
    intro k message ho
    cases message with
    | ok ret => exact ⟨ho.1, handled ret ho.2⟩
    | error e => exact ended ho
  cases h with
  | unnumbered pc seqnum unused wrote => exact .unnumbered pc seqnum unused wrote
  | sending pc unused wrote => exact .sending pc unused wrote
  | registering pc seqnum unused wrote => exact .registering pc seqnum unused wrote
  | waiting pc seqnum unused wrote hh => exact .waiting pc seqnum unused wrote (held _ hh)
  | answered pc seqnum channel sends wrote ho =>
    exact .answered pc seqnum channel sends wrote (owed _ _ ho)
  | failed pc unused wrote => exact .failed pc unused wrote
  | returned pc seqnum channel sends wrote ho =>
    exact .returned pc seqnum channel sends wrote (owed _ _ ho)

@[simp] theorem setCall_split (b : Bridge) (c : CallId) (call : Call) :
    (b.setCall c call).split = b.split := rfl

@[simp] theorem setCall_calls_self (b : Bridge) (c : CallId) (call : Call) :
    (b.setCall c call).calls c = call := Function.update_self ..

theorem setCall_calls_of_ne (b : Bridge) {c d : CallId} (call : Call) (h : d ≠ c) :
    (b.setCall c call).calls d = b.calls d := Function.update_of_ne h ..

/-- The position of a call after a step of this one. -/
theorem pc_setCall (b : Bridge) (c d : CallId) (call : Call) :
    ((b.setCall c call).calls d).pc = if d = c then call.pc else (b.calls d).pc := by
  by_cases same : d = c
  · rw [if_pos same, same, setCall_calls_self]
  · rw [if_neg same, setCall_calls_of_ne b call same]

/-- Sending moves no call. -/
theorem pc_send {b : Bridge} {tx : CallId} {message : Except IoError RetSubmit} {call : Call}
    (send : (b.calls tx).send message = some call) (c : CallId) :
    ((b.setCall tx call).calls c).pc = (b.calls c).pc := by
  rw [pc_setCall]
  by_cases same : c = tx
  · subst same
    rcases send_cases send with ⟨_, rfl⟩ | ⟨_, _, rfl⟩ <;> rw [if_pos rfl]
  · rw [if_neg same]

theorem callStep_calls_of_ne {b b' : Bridge} {c d : CallId} {fates : List Fate}
    (step : b.callStep d fates = some b') (h : c ≠ d) : b'.calls c = b.calls c := by
  cases callStep_cases step with
  | writing => rfl
  | _ => exact setCall_calls_of_ne b _ h

/-- What a step of the bridge does to one call. -/
inductive CallChange (b b' : Bridge) (c : CallId) : Action → Prop where
  | same {a} (calls : b'.calls c = b.calls c) : CallChange b b' c a
  | started {request} (idle : (b.calls c).pc = .idle)
      (calls : b'.calls c = { Call.idle with request, pc := .lockWriter }) :
      CallChange b b' c (.start c request)
  | moved {fates} (move : CallMove b c fates b') : CallChange b b' c (.call c fates)
  | sent {a message} (alive : (b.calls c).pc.dropped = false) (empty : (b.calls c).channel = [])
      (source : ∀ ret, message = .ok ret → b.reader = .deliver ret c)
      (calls : b'.calls c =
        { b.calls c with channel := [message], sends := (b.calls c).sends + 1 }) :
      CallChange b b' c a

theorem step_callChange {b b' : Bridge} {a : Action} (step : b.step a = some b') (c : CallId) :
    CallChange b b' c a := by
  have sent {tx : CallId} {message : Except IoError RetSubmit} {call : Call}
      (send : (b.calls tx).send message = some call)
      (source : ∀ ret, message = .ok ret → b.reader = .deliver ret tx)
      (calls : b'.calls = (b.setCall tx call).calls) : CallChange b b' c a := by
    by_cases htx : c = tx
    · subst htx
      rcases send_cases send with ⟨_, rfl⟩ | ⟨alive, empty, rfl⟩
      · exact .same (by rw [calls, setCall_calls_self])
      · exact .sent alive empty source (by rw [calls, setCall_calls_self])
    · exact .same (by rw [calls, setCall_calls_of_ne b call htx])
  cases step_cases step with
  | @start d request idle =>
    by_cases hcd : c = d
    · subst hcd
      exact .started idle (setCall_calls_self ..)
    · exact .same (setCall_calls_of_ne b _ hcd)
  | @call d fates _ move =>
    by_cases hcd : c = d
    · subst hcd
      exact .moved move
    · exact .same (callStep_calls_of_ne step hcd)
  | reader move =>
    cases move with
    | deliver pc send =>
      refine sent send ?_ rfl
      rintro _ ⟨⟩
      exact pc
    | _ => exact .same rfl
  | drain pc lookup send => exact sent send (by rintro _ ⟨⟩) rfl
  | deliver | close => exact .same rfl

/-- The request of a call is what it was started with. -/
theorem step_request {b b' : Bridge} {a : Action} (step : b.step a = some b') (c : CallId) :
    (b'.calls c).request = (b.calls c).request ∨
      ∃ request, a = .start c request ∧ (b'.calls c).request = request := by
  cases step_callChange step c with
  | same calls | sent _ _ _ calls => exact .inl (by rw [calls])
  | started _ calls => exact .inr ⟨_, rfl, by rw [calls]⟩
  | moved move =>
    left
    cases move with
    | writing => rfl
    | _ => simp [setCall]

theorem waiting_iff (pc : CallPc) : pc.waiting = true ↔ pc = .unlockWriter ∨ pc = .recv := by
  cases pc <;> simp [CallPc.waiting]

theorem Progress.of_unnumbered {b : Bridge} {c : CallId} {call : Call} (h : b.Progress c call)
    (here : call.pc.unnumbered = true) :
    call.seqnum = none ∧ call.Unused ∧ call.wrote = false := by
  cases h with
  | unnumbered pc seqnum unused wrote => exact ⟨seqnum, unused, wrote⟩
  | waiting pc | answered pc =>
    rcases (waiting_iff _).mp pc with pc | pc <;> simp [pc, CallPc.unnumbered] at here
  | registering pc => rcases pc with pc | pc <;> simp [pc, CallPc.unnumbered] at here
  | sending pc | failed pc | returned pc => simp [pc, CallPc.unnumbered] at here

theorem Progress.of_sending {b : Bridge} {c : CallId} {call : Call} (h : b.Progress c call)
    (here : call.pc = .sending) : call.Unused ∧ call.wrote = false := by
  cases h with
  | sending pc unused wrote => exact ⟨unused, wrote⟩
  | unnumbered pc | waiting pc | answered pc =>
    simp [here, CallPc.unnumbered, CallPc.waiting] at pc
  | registering pc | failed pc | returned pc => simp [here] at pc

theorem Progress.of_registering {b : Bridge} {c : CallId} {call : Call} {k : UInt32}
    (h : b.Progress c call) (here : call.pc = .lockPending k ∨ call.pc = .insert k) :
    call.seqnum = some k ∧ call.Unused ∧ call.wrote = true := by
  cases h with
  | registering pc seqnum unused wrote =>
    rcases here with here | here <;> simp [here] at pc <;> subst pc <;>
      exact ⟨seqnum, unused, wrote⟩
  | unnumbered pc | waiting pc | answered pc =>
    rcases here with here | here <;> simp [here, CallPc.unnumbered, CallPc.waiting] at pc
  | sending pc | failed pc | returned pc => rcases here with here | here <;> simp [here] at pc

theorem Progress.of_waiting {b : Bridge} {c : CallId} {call : Call} (h : b.Progress c call)
    (here : call.pc = .unlockWriter ∨ call.pc = .recv) :
    ∃ k, call.seqnum = some k ∧ call.wrote = true ∧
      ((call.Unused ∧ b.Held k c) ∨
        ∃ message, call.channel = [message] ∧ call.sends = 1 ∧ b.Owed k message) := by
  cases h with
  | waiting pc seqnum unused wrote held => exact ⟨_, seqnum, wrote, .inl ⟨unused, held⟩⟩
  | answered pc seqnum channel sends wrote owed =>
    exact ⟨_, seqnum, wrote, .inr ⟨_, channel, sends, owed⟩⟩
  | unnumbered pc => rcases here with here | here <;> simp [here, CallPc.unnumbered] at pc
  | sending pc | registering pc | failed pc | returned pc =>
    rcases here with here | here <;> simp [here] at pc

/-- What has to be shown of a step that moves at most the call `c`. -/
theorem Inv.update {b b' : Bridge} (h : b.Inv) (c : CallId)
    (others : ∀ d, d ≠ c → b'.calls d = b.calls d) (split : b'.split.Inv)
    (issued : ∃ more, b'.split.issued = b.split.issued ++ more)
    (numbered : ∀ k, (b'.calls c).seqnum = some k →
      IssuedAs b'.split.issued k (.submit (b'.calls c).request.args))
    (own : ∀ d k, d ≠ c → (b'.calls c).seqnum = some k → (b.calls d).seqnum ≠ some k)
    (mutex : (b'.calls c).pc.guarded = true → b'.writer = some c)
    (guards : ∀ d, d ≠ c → (b.calls d).pc.guarded = true →
      b'.writer = some d ∧ b'.split.issued = b.split.issued)
    (sending : (b'.calls c).pc = .sending →
      ∃ n, b'.split.issued.length = n + 1 ∧ (b'.calls c).seqnum = some (keyAt n))
    (progress : b'.Progress c (b'.calls c))
    (keep : ∀ k d, d ≠ c → b.Held k d → b'.Held k d)
    (old : ∀ k d, d ≠ c → b'.Held k d → b.Held k d)
    (handled : ∀ ret ∈ b.handled, ret ∈ b'.handled)
    (ended : b.reader.ended = true → b'.reader.ended = true)
    (held : ∀ k, b'.Held k c →
      (b'.calls c).seqnum = some k ∧ (b'.calls c).pc.waiting = true ∧ (b'.calls c).Unused)
    (apart : ∀ ret tx, b'.reader = .deliver ret tx → b'.pending.lookup ret.seqnum = none)
    (replies : b'.split.decoded.map Prod.snd =
      b'.handled ++ b'.reader.carried ++ b'.split.reader.result) : b'.Inv := by
  obtain ⟨more, hmore⟩ := issued
  refine ⟨split, ?_, ?_, ?_, ?_, ?_, ?_, apart, replies⟩
  · intro d k hk
    by_cases hd : d = c
    · exact hd ▸ numbered k (hd ▸ hk)
    · rw [others d hd] at hk ⊢
      exact hmore ▸ (h.numbered d k hk).mono
  · intro d e k hdk hek
    by_cases hd : d = c <;> by_cases he : e = c
    · rw [hd, he]
    · subst hd
      rw [others e he] at hek
      exact absurd hek (own e k he hdk)
    · subst he
      rw [others d hd] at hdk
      exact absurd hdk (own d k hd hek)
    · rw [others d hd] at hdk
      rw [others e he] at hek
      exact h.own d e k hdk hek
  · intro d hg
    by_cases hd : d = c
    · exact hd ▸ mutex (hd ▸ hg)
    · rw [others d hd] at hg
      exact (guards d hd hg).1
  · intro d hs
    by_cases hd : d = c
    · exact hd ▸ sending (hd ▸ hs)
    · rw [others d hd] at hs ⊢
      rw [(guards d hd (by simp [hs, CallPc.guarded])).2]
      exact h.sending d hs
  · intro d
    by_cases hd : d = c
    · exact hd ▸ progress
    · rw [others d hd]
      exact (h.progress d).frame (fun k => keep k d hd) handled ended
  · intro k d hh
    by_cases hd : d = c
    · subst hd
      exact held k hh
    · rw [others d hd]
      exact h.held k d (old k d hd hh)

/-- A step that moves one call and the connection, and neither the entries nor the reader thread. -/
theorem Inv.move {b : Bridge} (h : b.Inv) (c : CallId) (call : Call) (split : Split)
    (writer : Option CallId) (poisoned : Bool) (pendingLock : Option PendingHolder)
    (hsplit : split.Inv) (decoded : split.decoded = b.split.decoded)
    (reader : split.reader = b.split.reader)
    (issued : ∃ more, split.issued = b.split.issued ++ more)
    (numbered : ∀ k, call.seqnum = some k → IssuedAs split.issued k (.submit call.request.args))
    (own : ∀ d k, d ≠ c → call.seqnum = some k → (b.calls d).seqnum ≠ some k)
    (mutex : call.pc.guarded = true → writer = some c)
    (guards : ∀ d, d ≠ c → (b.calls d).pc.guarded = true →
      writer = some d ∧ split.issued = b.split.issued)
    (sending : call.pc = .sending →
      ∃ n, split.issued.length = n + 1 ∧ call.seqnum = some (keyAt n))
    (progress : b.Progress c call)
    (held : ∀ k, b.Held k c → call.seqnum = some k ∧ call.pc.waiting = true ∧ call.Unused) :
    Inv { b.setCall c call with split, writer, poisoned, pendingLock } := by
  refine h.update c (fun d hd => setCall_calls_of_ne b call hd) hsplit issued ?_ ?_ ?_ guards ?_ ?_
    (fun _ _ _ hh => hh) (fun _ _ _ hh => hh) (fun _ hr => hr) id ?_ h.apart ?_
  · simpa using numbered
  · simpa using own
  · simpa using mutex
  · simpa using sending
  · have moved : Progress { b.setCall c call with split, writer, poisoned, pendingLock } c call :=
      progress.frame (fun _ hh => hh) (fun _ hr => hr) id
    simpa using moved
  · intro k hh
    simpa using held k hh
  · simp only [decoded, reader]
    exact h.replies

/-- A step that moves no call. -/
theorem Inv.thread {b b' : Bridge} (h : b.Inv) (split : b'.split.Inv) (calls : b'.calls = b.calls)
    (writer : b'.writer = b.writer) (issued : b'.split.issued = b.split.issued)
    (held : ∀ k d, b'.Held k d ↔ b.Held k d) (handled : ∀ ret ∈ b.handled, ret ∈ b'.handled)
    (ended : b.reader.ended = true → b'.reader.ended = true)
    (apart : ∀ ret tx, b'.reader = .deliver ret tx → b'.pending.lookup ret.seqnum = none)
    (replies : b'.split.decoded.map Prod.snd =
      b'.handled ++ b'.reader.carried ++ b'.split.reader.result) : b'.Inv where
  split := split
  numbered := by rw [calls, issued]; exact h.numbered
  own := by rw [calls]; exact h.own
  mutex := by rw [calls, writer]; exact h.mutex
  sending := by rw [calls, issued]; exact h.sending
  progress c := by
    rw [calls]
    exact (h.progress c).frame (fun k => (held k c).mpr) handled ended
  held k c hh := by rw [calls]; exact h.held k c ((held k c).mp hh)
  apart := apart
  replies := replies

theorem Inv.not_held {b : Bridge} (h : b.Inv) {k : UInt32} {c : CallId}
    (here : (b.calls c).pc.waiting = false) : ¬ b.Held k c := by
  intro hh
  have := (h.held k c hh).2.1
  simp [here] at this

/-- The writer mutex is held by one call at most. -/
theorem Inv.guarded_unique {b : Bridge} (h : b.Inv) {c d : CallId}
    (hc : (b.calls c).pc.guarded = true) (hd : (b.calls d).pc.guarded = true) : d = c :=
  Option.some.inj ((h.mutex d hd).symm.trans (h.mutex c hc))

theorem Inv.own_of_same {b : Bridge} (h : b.Inv) {c : CallId} {call : Call}
    (seqnum : call.seqnum = (b.calls c).seqnum) :
    ∀ d k, d ≠ c → call.seqnum = some k → (b.calls d).seqnum ≠ some k :=
  fun d k hd hk hdk => hd (h.own d c k hdk (seqnum ▸ hk))

/-- A call that moves on with the number it has. -/
theorem Inv.advance {b : Bridge} (h : b.Inv) (c : CallId) (call : Call) (split : Split)
    (writer : Option CallId) (poisoned : Bool) (pendingLock : Option PendingHolder)
    (hsplit : split.Inv) (decoded : split.decoded = b.split.decoded)
    (reader : split.reader = b.split.reader) (issued : split.issued = b.split.issued)
    (seqnum : call.seqnum = (b.calls c).seqnum) (request : call.request = (b.calls c).request)
    (mutex : call.pc.guarded = true → writer = some c)
    (guards : ∀ d, d ≠ c → (b.calls d).pc.guarded = true → writer = some d)
    (started : call.pc ≠ .sending) (progress : b.Progress c call)
    (held : ∀ k, b.Held k c → call.pc.waiting = true ∧ call.Unused) :
    Inv { b.setCall c call with split, writer, poisoned, pendingLock } := by
  refine h.move c call split writer poisoned pendingLock hsplit decoded reader
    ⟨[], by rw [issued, List.append_nil]⟩ ?_ (h.own_of_same seqnum) mutex
    (fun d hd hg => ⟨guards d hd hg, issued⟩) (fun sending => absurd sending started) progress ?_
  · intro k hk
    rw [issued, request]
    exact h.numbered c k (seqnum ▸ hk)
  · intro k hh
    exact ⟨seqnum ▸ (h.held k c hh).1, held k hh⟩

/-- A call enters its sender in the map under its number. -/
theorem Inv.insert {b : Bridge} {c : CallId} {seqnum : UInt32} (h : b.Inv)
    (pc : (b.calls c).pc = .insert seqnum) :
    Inv { b.setCall c { b.calls c with pc := .unlockWriter } with
      pending := b.pending.insert seqnum c, pendingLock := none } := by
  obtain ⟨hseq, hunused, hwrote⟩ := (h.progress c).of_registering (.inr pc)
  have unheld : ∀ k, ¬ b.Held k c := fun k => h.not_held (by simp [pc, CallPc.waiting])
  have foreign : ∀ d, d ≠ c → ¬ b.Held seqnum d := fun d hd hh =>
    hd (h.own d c seqnum (h.held seqnum d hh).1 hseq)
  refine h.update c (fun d hd => setCall_calls_of_ne b _ hd) h.split
    ⟨[], (List.append_nil _).symm⟩ ?_ ?_ ?_ (fun d _ hg => ⟨h.mutex d hg, rfl⟩) ?_ ?_ ?_ ?_
    (fun _ hr => hr) id ?_ ?_ h.replies
  · simpa using h.numbered c
  · simpa using h.own_of_same (c := c) rfl
  · exact fun _ => h.mutex c (by simp [pc, CallPc.guarded])
  · simp
  · simp only [setCall_calls_self]
    exact .waiting rfl hseq hunused hwrote (.inl (by simp))
  · intro k d hd hh
    rcases hh with hk | hr
    · by_cases hkey : k = seqnum
      · exact absurd (.inl (hkey ▸ hk)) (foreign d hd)
      · exact .inl (by simp [hkey, hk])
    · exact .inr hr
  · rintro k d hd (hk | hr)
    · simp only [Table.lookup_insert] at hk
      split at hk
      · exact absurd (Option.some.inj hk).symm hd
      · exact .inl hk
    · exact .inr hr
  · rintro k (hk | hr)
    · simp only [Table.lookup_insert] at hk
      split at hk
      · next hkey =>
        simp only [setCall_calls_self]
        exact ⟨hkey ▸ hseq, rfl, hunused⟩
      · exact absurd (.inl hk) (unheld k)
    · exact absurd (.inr hr) (unheld k)
  · intro ret tx hr
    have hkey : ret.seqnum ≠ seqnum := by
      intro hkey
      by_cases htx : tx = c
      · exact unheld _ (.inr ⟨ret, htx ▸ hr, rfl⟩)
      · exact foreign tx htx (.inr ⟨ret, hr, hkey⟩)
    simpa [hkey] using h.apart ret tx hr

theorem Inv.callStep {b b' : Bridge} {c : CallId} {fates : List Fate} (h : b.Inv)
    (step : b.callStep c fates = some b') (bound : b'.split.issued.length < 2 ^ 32) : b'.Inv := by
  have keep : ∀ d, d ≠ c → (b.calls d).pc.guarded = true → b.writer = some d :=
    fun d _ hg => h.mutex d hg
  have alone : (b.calls c).pc.guarded = true → ∀ d, d ≠ c → (b.calls d).pc.guarded ≠ true :=
    fun hc d hd hg => hd (h.guarded_unique hc hg)
  have no_guard : b.writer = none → ∀ d, (b.calls d).pc.guarded ≠ true :=
    fun free d hg => by simp [h.mutex d hg] at free
  cases callStep_cases step with
  | poisoned pc free =>
    obtain ⟨hseq, hunused, hwrote⟩ := (h.progress c).of_unnumbered (by simp [pc, CallPc.unnumbered])
    exact h.advance c _ b.split b.writer b.poisoned b.pendingLock h.split rfl rfl rfl rfl rfl
      (by rintro ⟨⟩) keep (by rintro ⟨⟩) (.unnumbered rfl hseq hunused hwrote)
      (fun k hh => absurd hh (h.not_held (by simp [pc, CallPc.waiting])))
  | lockWriter pc free =>
    obtain ⟨hseq, hunused, hwrote⟩ := (h.progress c).of_unnumbered (by simp [pc, CallPc.unnumbered])
    exact h.advance c _ b.split (some c) b.poisoned b.pendingLock h.split rfl rfl rfl rfl rfl
      (fun _ => rfl) (fun d _ hg => absurd hg (no_guard free d)) (by rintro ⟨⟩)
      (.unnumbered rfl hseq hunused hwrote)
      (fun k hh => absurd hh (h.not_held (by simp [pc, CallPc.waiting])))
  | @allocated split seqnum cmd pc call writer =>
    obtain ⟨hseq, hunused, hwrote⟩ := (h.progress c).of_unnumbered (by simp [pc, CallPc.unnumbered])
    have hsplit := h.split.call call (Nat.le_of_lt bound)
    have guarded : (b.calls c).pc.guarded = true := by simp [pc, CallPc.guarded]
    obtain ⟨_, ⟨_, rfl⟩ | ⟨_, next, halloc, rfl⟩⟩ := Split.call_cases call
    · cases writer
    · obtain ⟨rfl, rfl⟩ := WriterPc.lockInsert.inj writer
      obtain ⟨rfl, _, _⟩ := allocSeqnum_cases halloc
      have new : b.split.nextSeqnum = keyAt b.split.issued.length := h.split.counter
      have short : b.split.issued.length < 2 ^ 32 := by
        simp only [List.length_append, List.length_singleton] at bound
        omega
      refine h.move c _ _ b.writer b.poisoned b.pendingLock hsplit rfl rfl ⟨_, rfl⟩ ?_ ?_
        (fun _ => h.mutex c guarded) (fun d hd hg => absurd hg (alone guarded d hd)) (fun _ => ?_)
        (.sending rfl hunused hwrote)
        (fun k hh => absurd hh (h.not_held (by simp [pc, CallPc.waiting])))
      · rintro k ⟨⟩
        exact new ▸ issuedAs_last _ _
      · rintro d k hd ⟨⟩ hdk
        exact (h.numbered d _ hdk).ne_next short new
      · exact ⟨b.split.issued.length, by simp, by rw [new]⟩
  | @panicked split pc call writer =>
    obtain ⟨hseq, hunused, hwrote⟩ := (h.progress c).of_unnumbered (by simp [pc, CallPc.unnumbered])
    have hsplit := h.split.call call (Nat.le_of_lt bound)
    have guarded : (b.calls c).pc.guarded = true := by simp [pc, CallPc.guarded]
    obtain ⟨_, ⟨_, rfl⟩ | ⟨_, next, halloc, rfl⟩⟩ := Split.call_cases call
    · exact h.advance c _ _ none true b.pendingLock hsplit rfl rfl rfl rfl rfl
        (by rintro ⟨⟩) (fun d hd hg => absurd hg (alone guarded d hd)) (by rintro ⟨⟩)
        (.unnumbered rfl hseq hunused hwrote)
        (fun k hh => absurd hh (h.not_held (by simp [pc, CallPc.waiting])))
    · exact absurd rfl (writer _ _)
  | @writing split pc move =>
    have hsplit := h.split.writerStep move
    cases Split.writerStep_cases move <;>
      exact h.thread hsplit rfl rfl rfl (fun _ _ => .rfl) (fun _ hr => hr) id h.apart h.replies
  | @written split seqnum pc collect =>
    obtain ⟨hunused, hwrote⟩ := (h.progress c).of_sending pc
    obtain ⟨n, hlen, hseq⟩ := h.sending c pc
    have hsplit := h.split.step (a := .collect) (by simp [Split.step, collect]; rfl) ?_
    obtain ⟨hpc, rfl⟩ := Split.collect_cases collect
    obtain ⟨n', hlen', rfl⟩ := h.split.result seqnum hpc
    obtain rfl : n' = n := by omega
    · exact h.advance c _ _ b.writer b.poisoned b.pendingLock hsplit rfl rfl rfl rfl rfl
        (fun _ => h.mutex c (by simp [pc, CallPc.guarded])) keep (by rintro ⟨⟩)
        (.registering (.inl rfl) hseq hunused rfl)
        (fun k hh => absurd hh (h.not_held (by simp [pc, CallPc.waiting])))
    · exact Nat.le_of_lt bound
  | @failed split e pc collect =>
    obtain ⟨hunused, hwrote⟩ := (h.progress c).of_sending pc
    have guarded : (b.calls c).pc.guarded = true := by simp [pc, CallPc.guarded]
    have hsplit := h.split.step (a := .collect) (by simp [Split.step, collect]; rfl) ?_
    obtain ⟨hpc, rfl⟩ := Split.collect_cases collect
    · exact h.advance c _ _ none b.poisoned b.pendingLock hsplit rfl rfl rfl rfl rfl
        (by rintro ⟨⟩) (fun d hd hg => absurd hg (alone guarded d hd)) (by rintro ⟨⟩)
        (.failed rfl hunused hwrote)
        (fun k hh => absurd hh (h.not_held (by simp [pc, CallPc.waiting])))
    · exact Nat.le_of_lt bound
  | @lockPending seqnum pc free =>
    obtain ⟨hseq, hunused, hwrote⟩ := (h.progress c).of_registering (.inl pc)
    exact h.advance c _ b.split b.writer b.poisoned (some (.call c)) h.split rfl rfl rfl rfl rfl
      (fun _ => h.mutex c (by simp [pc, CallPc.guarded])) keep (by rintro ⟨⟩)
      (.registering (.inr rfl) hseq hunused hwrote)
      (fun k hh => absurd hh (h.not_held (by simp [pc, CallPc.waiting])))
  | insert pc => exact h.insert pc
  | unlockWriter pc =>
    have guarded : (b.calls c).pc.guarded = true := by simp [pc, CallPc.guarded]
    obtain ⟨k, hseq, hwrote, hwait⟩ := (h.progress c).of_waiting (.inl pc)
    refine h.advance c _ b.split none b.poisoned b.pendingLock h.split rfl rfl rfl rfl rfl
      (by rintro ⟨⟩) (fun d hd hg => absurd hg (alone guarded d hd)) (by rintro ⟨⟩) ?_
      (fun k hh => ⟨rfl, (h.held k c hh).2.2⟩)
    rcases hwait with ⟨hunused, hheld⟩ | ⟨message, hchannel, hsends, howed⟩
    · exact .waiting rfl hseq hunused hwrote hheld
    · exact .answered rfl hseq hchannel hsends hwrote howed
  | @received message rest pc channel =>
    obtain ⟨k, hseq, hwrote, ⟨hunused, _⟩ | ⟨message', hchannel, hsends, howed⟩⟩ :=
      (h.progress c).of_waiting (.inr pc)
    · simp [hunused.1] at channel
    · obtain ⟨rfl, rfl⟩ := List.cons.inj (channel.symm.trans hchannel)
      refine h.advance c _ b.split b.writer b.poisoned b.pendingLock h.split rfl rfl rfl rfl rfl
        (by rintro ⟨⟩) keep (by rintro ⟨⟩) (.returned rfl hseq rfl hsends hwrote howed) ?_
      intro k hh
      simp [(h.held k c hh).2.2.1] at channel
  | disconnected pc channel gone =>
    obtain ⟨k, hseq, hwrote, ⟨_, hheld⟩ | ⟨message', hchannel, _⟩⟩ :=
      (h.progress c).of_waiting (.inr pc)
    · apply absurd _ gone
      rcases hheld with hk | ⟨ret, hr, _⟩
      · exact .inl ((Table.holds_iff _ _).mpr ⟨k, hk⟩)
      · exact .inr (by simp [hr, ReaderThread.carries])
    · simp [hchannel] at channel

/-! ## Steps of the reader thread -/

/-- A channel whose sender is still held takes a message. -/
theorem Inv.send_held {b : Bridge} (h : b.Inv) {k : UInt32} {tx : CallId} (held : b.Held k tx)
    (message : Except IoError RetSubmit) :
    (b.calls tx).send message =
      some { b.calls tx with channel := [message], sends := (b.calls tx).sends + 1 } := by
  obtain ⟨_, hwait, hempty, _⟩ := h.held k tx held
  have alive : (b.calls tx).pc.dropped = false := by
    rcases (waiting_iff _).mp hwait with hpc | hpc <;> simp [hpc, CallPc.dropped]
  simp [Call.send, alive, hempty]

/-- A held sender sends its message and is gone. -/
theorem Inv.sent {b b' : Bridge} (h : b.Inv) {k : UInt32} {tx : CallId} (held : b.Held k tx)
    (message : Except IoError RetSubmit) (split : b'.split = b.split)
    (writer : b'.writer = b.writer)
    (calls : b'.calls = Function.update b.calls tx
      { b.calls tx with channel := [message], sends := (b.calls tx).sends + 1 })
    (gone : ∀ k d, b'.Held k d ↔ b.Held k d ∧ d ≠ tx) (owed : b'.Owed k message)
    (handled : ∀ ret ∈ b.handled, ret ∈ b'.handled)
    (ended : b.reader.ended = true → b'.reader.ended = true)
    (apart : ∀ ret tx, b'.reader = .deliver ret tx → b'.pending.lookup ret.seqnum = none)
    (replies : b'.split.decoded.map Prod.snd =
      b'.handled ++ b'.reader.carried ++ b'.split.reader.result) : b'.Inv := by
  obtain ⟨hseq, hwait, hunused⟩ := h.held k tx held
  have self : b'.calls tx =
      { b.calls tx with channel := [message], sends := (b.calls tx).sends + 1 } := by
    rw [calls, Function.update_self]
  have hwrote : (b.calls tx).wrote = true := by
    obtain ⟨_, _, hwrote, _⟩ := (h.progress tx).of_waiting ((waiting_iff _).mp hwait)
    exact hwrote
  refine h.update tx (fun d hd => by rw [calls, Function.update_of_ne hd]) (split ▸ h.split)
    ⟨[], by rw [split, List.append_nil]⟩ ?_ ?_ ?_ ?_ ?_ ?_
    (fun k d hd hh => (gone k d).mpr ⟨hh, hd⟩)
    (fun k d _ hh => ((gone k d).mp hh).1) handled ended
    (fun k hh => absurd rfl ((gone k tx).mp hh).2) apart replies
  · rw [self, split]
    exact h.numbered tx
  · rw [self]
    exact h.own_of_same rfl
  · rw [self, writer]
    exact h.mutex tx
  · intro d _ hg
    rw [writer, split]
    exact ⟨h.mutex d hg, rfl⟩
  · rw [self, split]
    exact h.sending tx
  · rw [self]
    exact .answered hwait hseq rfl (by simp [hunused.2]) hwrote owed

theorem held_iff_lookup {b : Bridge} {k : UInt32} {c : CallId}
    (idle : ∀ ret, b.reader ≠ .deliver ret c) : b.Held k c ↔ b.pending.lookup k = some c :=
  ⟨fun hh => hh.resolve_right fun ⟨ret, hr, _⟩ => idle ret hr, .inl⟩

/-- A step of the reader thread that finds it, and leaves it, without a sender of its own. -/
theorem Inv.between {b b' : Bridge} (h : b.Inv) (split : b'.split.Inv)
    (calls : b'.calls = b.calls) (pending : b'.pending = b.pending)
    (writer : b'.writer = b.writer) (issued : b'.split.issued = b.split.issued)
    (idle : ∀ ret tx, b.reader ≠ .deliver ret tx)
    (idle' : ∀ ret tx, b'.reader ≠ .deliver ret tx)
    (handled : ∀ ret ∈ b.handled, ret ∈ b'.handled)
    (ended : b.reader.ended = true → b'.reader.ended = true)
    (replies : b'.split.decoded.map Prod.snd =
      b'.handled ++ b'.reader.carried ++ b'.split.reader.result) : b'.Inv := by
  refine h.thread split calls writer issued (fun k d => ?_) handled ended
    (fun ret tx here => absurd here (idle' ret tx)) replies
  rw [held_iff_lookup (idle' · d), held_iff_lookup (idle · d), pending]

theorem Inv.readerStep {b b' : Bridge} (h : b.Inv) (step : b.readerStep = some b')
    (bound : b'.split.issued.length < 2 ^ 32) : b'.Inv := by
  cases readerStep_cases step with
  | @reading split pc move =>
    obtain ⟨hresult, hissued, hdecoded⟩ := Split.readerStep_replies move
    refine h.thread (h.split.readerStep move) rfl rfl hissued (fun _ _ => .rfl) (fun _ hr => hr) id
      h.apart ?_
    rw [hdecoded, h.replies]
    simp [pc, hresult, ReaderThread.carried]
  | @submit split ret pc take =>
    have hsplit := h.split.step (a := .takeResponse) (by simp [Split.step, take])
      (Nat.le_of_lt bound)
    obtain ⟨hpc, rfl⟩ := Split.takeResponse_cases take
    refine h.between hsplit rfl rfl rfl rfl (by simp [pc]) (by simp) (fun _ hr => hr)
      (by simp [pc, ReaderThread.ended]) ?_
    refine h.replies.trans ?_
    simp [pc, hpc, ReaderThread.carried, ReaderPc.result]
  | @unlink split ret pc take =>
    have hsplit := h.split.step (a := .takeResponse) (by simp [Split.step, take])
      (Nat.le_of_lt bound)
    obtain ⟨hpc, rfl⟩ := Split.takeResponse_cases take
    refine h.thread hsplit rfl rfl rfl (fun _ _ => .rfl) (fun _ hr => hr) id h.apart ?_
    refine h.replies.trans ?_
    simp [hpc, ReaderPc.result]
  | @error split e pc take =>
    have hsplit := h.split.step (a := .takeResponse) (by simp [Split.step, take])
      (Nat.le_of_lt bound)
    obtain ⟨hpc, rfl⟩ := Split.takeResponse_cases take
    refine h.between hsplit rfl rfl rfl rfl (by simp [pc]) (by simp) (fun _ hr => hr)
      (by simp [pc, ReaderThread.ended]) ?_
    refine h.replies.trans ?_
    simp [pc, hpc, ReaderThread.carried, ReaderPc.result]
  | @lockPending ret pc free =>
    refine h.between h.split rfl rfl rfl rfl (by simp [pc]) (by simp) (fun _ hr => hr)
      (by simp [pc, ReaderThread.ended]) ?_
    refine h.replies.trans ?_
    simp [pc, ReaderThread.carried]
  | @found ret tx pc lookup =>
    refine h.thread h.split rfl rfl rfl (fun k d => ?_) (fun _ hr => hr)
      (by simp [pc, ReaderThread.ended]) ?_ ?_
    · rw [held_iff_lookup (b := b) (by simp [pc])]
      simp only [Held, Table.lookup_erase, ReaderThread.deliver.injEq]
      constructor
      · rintro (hk | ⟨_, ⟨rfl, rfl⟩, rfl⟩)
        · split at hk
          · cases hk
          · exact hk
        · exact lookup
      · intro hk
        by_cases hkey : k = ret.seqnum
        · subst hkey
          exact .inr ⟨ret, ⟨rfl, Option.some.inj (lookup.symm.trans hk)⟩, rfl⟩
        · exact .inl (by rw [if_neg hkey, hk])
    · rintro _ _ ⟨⟩
      simp
    · refine h.replies.trans ?_
      simp [pc, ReaderThread.carried]
  | @unknown ret pc lookup =>
    refine h.between h.split rfl (Table.erase_of_lookup_none _ _ lookup) rfl rfl (by simp [pc])
      (by simp) (fun _ hr => List.mem_append_left _ hr) (by simp [pc, ReaderThread.ended]) ?_
    refine h.replies.trans ?_
    simp [pc, ReaderThread.carried]
  | @deliver ret tx call pc send =>
    have held : b.Held ret.seqnum tx := .inr ⟨ret, pc, rfl⟩
    obtain rfl := Option.some.inj ((h.send_held held (.ok ret)).symm.trans send)
    refine h.sent held (.ok ret) rfl rfl rfl (fun k d => ?_) ⟨rfl, by simp⟩
      (fun _ hr => List.mem_append_left _ hr) (by simp [pc, ReaderThread.ended])
      (by rintro _ _ ⟨⟩) ?_
    · rw [held_iff_lookup (by simp)]
      constructor
      · intro hk
        refine ⟨.inl hk, ?_⟩
        rintro rfl
        obtain rfl : k = ret.seqnum :=
          Option.some.inj ((h.held k d (.inl hk)).1.symm.trans (h.held _ d held).1)
        have hk : b.pending.lookup ret.seqnum = some d := hk
        simp [h.apart ret d pc] at hk
      · rintro ⟨hk | ⟨_, hr, _⟩, hd⟩
        · exact hk
        · rw [pc] at hr
          exact absurd (ReaderThread.deliver.inj hr).2.symm hd
    · refine h.replies.trans ?_
      simp [pc, ReaderThread.carried]
  | lockDrain pc free =>
    refine h.between h.split rfl rfl rfl rfl (by simp [pc]) (by simp) (fun _ hr => hr)
      (fun _ => rfl) ?_
    refine h.replies.trans ?_
    simp [pc, ReaderThread.carried]
  | drained pc empty =>
    refine h.between h.split rfl rfl rfl rfl (by simp [pc]) (by simp) (fun _ hr => hr)
      (fun _ => rfl) ?_
    refine h.replies.trans ?_
    simp [pc, ReaderThread.carried]

theorem Inv.drainStep {b b' : Bridge} {seqnum : UInt32} (h : b.Inv)
    (step : b.drainStep seqnum = some b') : b'.Inv := by
  obtain ⟨tx, call, pc, lookup, send, rfl⟩ := drainStep_cases step
  have held : b.Held seqnum tx := .inl lookup
  obtain rfl := Option.some.inj ((h.send_held held (.error readerTerminated)).symm.trans send)
  have idle : ∀ ret d, b.reader ≠ .deliver ret d := by simp [pc]
  refine h.sent held (.error readerTerminated) rfl rfl rfl (fun k d => ?_)
    (show b.reader.ended = true by rw [pc]; rfl) (fun _ hr => hr) id
    (fun ret tx hr => absurd hr (idle ret tx)) h.replies
  rw [held_iff_lookup (b := b) (idle · d), held_iff_lookup (by exact (idle · d))]
  simp only [Table.lookup_erase]
  constructor
  · intro hk
    split at hk
    · cases hk
    · next hkey =>
      refine ⟨hk, ?_⟩
      rintro rfl
      exact hkey (Option.some.inj ((h.held k d (.inl hk)).1.symm.trans (h.held seqnum d held).1))
  · rintro ⟨hk, hd⟩
    have hkey : k ≠ seqnum := by
      rintro rfl
      exact hd (Option.some.inj (hk.symm.trans lookup))
    rw [if_neg hkey, hk]

/-! ## Runs -/

theorem Inv.step {b b' : Bridge} {a : Action} (h : b.Inv) (step : b.step a = some b')
    (bound : b'.split.issued.length < 2 ^ 32) : b'.Inv := by
  cases step_cases step with
  | @start c request pc =>
    exact h.move c _ b.split b.writer b.poisoned b.pendingLock h.split rfl rfl
      ⟨[], (List.append_nil _).symm⟩ (by rintro _ ⟨⟩) (by rintro _ _ _ ⟨⟩) (by rintro ⟨⟩)
      (fun d _ hg => ⟨h.mutex d hg, rfl⟩) (by rintro ⟨⟩)
      (.unnumbered rfl rfl ⟨rfl, rfl⟩ rfl)
      (fun k hh => absurd hh (h.not_held (by simp [pc, CallPc.waiting])))
  | call => exact h.callStep step bound
  | reader => exact h.readerStep step bound
  | drain => exact h.drainStep step
  | @deliver bytes split hstep =>
    have hsplit := h.split.step (a := .deliver bytes) hstep (Nat.le_of_lt bound)
    obtain rfl := Split.deliver_cases hstep
    exact h.thread hsplit rfl rfl rfl (fun _ _ => .rfl) (fun _ hr => hr) id h.apart h.replies
  | @close e split hstep =>
    have hsplit := h.split.step (a := .close e) hstep (Nat.le_of_lt bound)
    obtain rfl := Split.close_cases hstep
    exact h.thread hsplit rfl rfl rfl (fun _ _ => .rfl) (fun _ hr => hr) id h.apart h.replies

/-- The bridge `main` sets up on an imported device. -/
def imported (build : Build) (input : Input) (output : Output) (busnum devnum : UInt32) : Bridge :=
  new (.ofConnection build (.imported input output busnum devnum))

theorem Inv.initial (build : Build) (input : Input) (output : Output) (busnum devnum : UInt32) :
    Inv (imported build input output busnum devnum) where
  split := Split.Inv.initial build input output busnum devnum
  numbered := nofun
  own := nofun
  mutex := nofun
  sending := nofun
  progress _ := .unnumbered rfl rfl ⟨rfl, rfl⟩ rfl
  held k c hh := by
    rcases hh with hk | ⟨_, hr, _⟩
    · simp [imported, new] at hk
    · cases hr
  apart := nofun
  replies := rfl

/-- The commands of the bridge are the CMD_SUBMITs of its calls. -/
theorem step_issued {b b' : Bridge} {a : Action} (step : b.step a = some b') :
    b'.split.issued = b.split.issued ∨ ∃ c, (b.calls c).pc = .sendSubmit ∧
      b'.split.issued = b.split.issued ++ [.submit (b.calls c).request.args] := by
  rcases step_split step with same | ⟨a', hstep, on⟩
  · exact .inl (by rw [same])
  · rcases Split.step_issued hstep with same | ⟨cmd, ha, hissued⟩
    · exact .inl same
    · obtain ⟨c, pc, rfl⟩ := on.sends cmd ha
      exact .inr ⟨c, pc, hissued⟩

theorem issued_length_le {b b' : Bridge} {a : Action} (step : b.step a = some b') :
    b.split.issued.length ≤ b'.split.issued.length := by
  rcases step_issued step with same | ⟨c, _, hissued⟩
  · rw [same]
  · simp [hissued]

open Transition

/-- An invariant that needs the counter not to have gone round carries over
whole runs that stay below that many numbers. -/
theorem invariant_below {limit : ℕ} {guard : Bridge → Action → Prop} {start b : Bridge}
    (P : Bridge → Prop) (init : P start)
    (pres : ∀ b a b', P b → guard b a → b.step a = some b' →
      b'.split.issued.length < limit → P b')
    (run : Reaches Bridge.step guard start b) (bound : b.split.issued.length < limit) : P b :=
  run.invariant_below P (fun b => b.split.issued.length) init (fun _ _ _ => issued_length_le)
    pres bound

theorem Inv.of_run {guard : Bridge → Action → Prop} {build : Build} {input : Input}
    {output : Output} {busnum devnum : UInt32} {b : Bridge}
    (run : Reaches Bridge.step guard (imported build input output busnum devnum) b)
    (bound : b.split.issued.length < 2 ^ 32 - 1) : b.Inv :=
  invariant_below Inv (.initial ..) (fun _ _ _ h _ step hlen => h.step step (by omega)) run bound

end Bridge

end UsbipDevirt
