import UsbipDevirt.BridgeSafety

/-!
# The senders of the bridge

The sender of a call lies in `bridge.pending` or in the hands of the reader thread,
and is used at most once: whoever takes it out of the map sends on a channel that
was never used. A send therefore never waits, however long the bridge has run.
-/

namespace UsbipDevirt

open Transition

namespace Bridge

/-- The call still has its sender. -/
def keepsSender : CallPc → Bool
  | .unlockWriter | .recv | .returned _ | .panicked => false
  | _ => true

/-- A sender that is kept anywhere is kept in one place, its call is still waiting,
and nothing was ever sent on it. -/
structure Fresh (b : Bridge) : Prop where
  own : ∀ c, keepsSender (b.calls c).pc = true → (b.calls c).Unused
  held : ∀ k c, b.pending.lookup k = some c →
    (b.calls c).pc.waiting = true ∧ (b.calls c).Unused
  carried : ∀ ret c, b.reader = .deliver ret c →
    (b.calls c).pc.waiting = true ∧ (b.calls c).Unused
  once : ∀ j k c, b.pending.lookup j = some c → b.pending.lookup k = some c → j = k
  apart : ∀ ret c k, b.reader = .deliver ret c → b.pending.lookup k ≠ some c

/-- No sender gets to a new place, and only one call changes. -/
theorem Fresh.update {b b' : Bridge} {c : CallId} (h : b.Fresh)
    (others : ∀ d, d ≠ c → b'.calls d = b.calls d)
    (pending : ∀ k d, b'.pending.lookup k = some d → b.pending.lookup k = some d)
    (reader : ∀ ret d, b'.reader = .deliver ret d → b.reader = .deliver ret d)
    (own : keepsSender (b'.calls c).pc = true → (b'.calls c).Unused)
    (held : (∃ k, b'.pending.lookup k = some c) ∨ (∃ ret, b'.reader = .deliver ret c) →
      (b'.calls c).pc.waiting = true ∧ (b'.calls c).Unused) : b'.Fresh := by
  constructor
  · intro d keeps
    by_cases hd : d = c
    · exact hd ▸ own (hd ▸ keeps)
    · rw [others d hd] at keeps ⊢
      exact h.own d keeps
  · intro k d lookup
    by_cases hd : d = c
    · subst hd
      exact held (.inl ⟨k, lookup⟩)
    · rw [others d hd]
      exact h.held k d (pending k d lookup)
  · intro ret d carries
    by_cases hd : d = c
    · subst hd
      exact held (.inr ⟨ret, carries⟩)
    · rw [others d hd]
      exact h.carried ret d (reader ret d carries)
  · intro j k d hj hk
    exact h.once j k d (pending j d hj) (pending k d hk)
  · intro ret d k carries lookup
    exact h.apart ret d k (reader ret d carries) (pending k d lookup)

/-- The same when no call changes. -/
theorem Fresh.of_calls {b b' : Bridge} (h : b.Fresh) (calls : b'.calls = b.calls)
    (pending : ∀ k d, b'.pending.lookup k = some d → b.pending.lookup k = some d)
    (reader : ∀ ret d, b'.reader = .deliver ret d → b.reader = .deliver ret d) : b'.Fresh := by
  apply h.update (c := 0) (fun d _ => by rw [calls]) pending reader
  · rw [calls]
    exact h.own 0
  · rw [calls]
    rintro (⟨k, lookup⟩ | ⟨ret, carries⟩)
    · exact h.held k 0 (pending k 0 lookup)
    · exact h.carried ret 0 (reader ret 0 carries)

theorem Fresh.of_holds {b : Bridge} (h : b.Fresh) {c : CallId}
    (held : (∃ k, b.pending.lookup k = some c) ∨ ∃ ret, b.reader = .deliver ret c) :
    (b.calls c).pc.waiting = true ∧ (b.calls c).Unused := by
  rcases held with ⟨k, lookup⟩ | ⟨ret, carries⟩
  · exact h.held k c lookup
  · exact h.carried ret c carries

theorem fresh_new (split : Split) : (new split).Fresh := by
  constructor
  · intro c _
    exact ⟨rfl, rfl⟩
  · intro k c lookup
    simp [new] at lookup
  · intro ret c carries
    simp [new] at carries
  · intro j k c lookup
    simp [new] at lookup
  · intro ret c k carries
    simp [new] at carries

/-- Out of the map, a sender is not left in it under another number. -/
theorem Fresh.lookup_erase_ne {b : Bridge} (h : b.Fresh) {seqnum : UInt32} {tx : CallId}
    (lookup : b.pending.lookup seqnum = some tx) (k : UInt32) :
    (b.pending.erase seqnum).lookup k ≠ some tx := by
  intro kept
  have same := h.once _ _ _ lookup (Table.lookup_of_erase kept)
  rw [← same, Table.lookup_erase, if_pos rfl] at kept
  cases kept

/-- The sender of a call is put into the map for the first time. -/
theorem Fresh.insert {b b' : Bridge} {c : CallId} {seqnum : UInt32} (h : b.Fresh)
    (pc : (b.calls c).pc = .insert seqnum) (others : ∀ d, d ≠ c → b'.calls d = b.calls d)
    (pending : b'.pending = b.pending.insert seqnum c) (reader : b'.reader = b.reader)
    (waiting : (b'.calls c).pc.waiting = true ∧ (b'.calls c).Unused) : b'.Fresh := by
  have new : ¬ ((∃ k, b.pending.lookup k = some c) ∨ ∃ ret, b.reader = .deliver ret c) := by
    intro held
    have early := (h.of_holds held).1
    simp [pc, CallPc.waiting] at early
  have old {k : UInt32} {d : CallId} (hd : d ≠ c) (lookup : b'.pending.lookup k = some d) :
      b.pending.lookup k = some d := by
    rw [pending, Table.lookup_insert] at lookup
    split at lookup
    · exact absurd (Option.some.inj lookup).symm hd
    · exact lookup
  have here {k : UInt32} (lookup : b'.pending.lookup k = some c) : k = seqnum := by
    rw [pending, Table.lookup_insert] at lookup
    by_cases same : k = seqnum
    · exact same
    · rw [if_neg same] at lookup
      exact absurd (.inl ⟨k, lookup⟩) new
  have notCarried {ret : RetSubmit} {d : CallId} (carries : b'.reader = .deliver ret d) :
      d ≠ c := by
    rw [reader] at carries
    rintro rfl
    exact new (.inr ⟨ret, carries⟩)
  constructor
  · intro d keeps
    by_cases hd : d = c
    · exact hd ▸ waiting.2
    · rw [others d hd] at keeps ⊢
      exact h.own d keeps
  · intro k d lookup
    by_cases hd : d = c
    · exact hd ▸ waiting
    · rw [others d hd]
      exact h.held k d (old hd lookup)
  · intro ret d carries
    rw [others d (notCarried carries)]
    exact h.carried ret d (reader ▸ carries)
  · intro j k d hj hk
    by_cases hd : d = c
    · subst hd
      rw [here hj, here hk]
    · exact h.once j k d (old hd hj) (old hd hk)
  · intro ret d k carries lookup
    exact h.apart ret d k (reader ▸ carries) (old (notCarried carries) lookup)

theorem fresh_callMove {b b' : Bridge} {c : CallId} {fates : List Fate} (h : b.Fresh)
    (move : CallMove b c fates b') : b'.Fresh := by
  have other (call : Call) (d : CallId) (hd : d ≠ c) : (b.setCall c call).calls d = b.calls d :=
    setCall_calls_of_ne b call hd
  cases move with
  | @insert seqnum pc =>
    apply h.insert pc
    · exact other _
    · rfl
    · rfl
    · have unused := h.own c (by rw [pc]; rfl)
      simpa [setCall, CallPc.waiting, Call.Unused] using unused
  | writing => exact h.of_calls rfl (fun _ _ => id) (fun _ _ => id)
  | unlockWriter pc =>
    apply Fresh.update (c := c) h
    · exact other _
    · exact fun _ _ => id
    · exact fun _ _ => id
    · simp [setCall, keepsSender]
    · intro held
      have unused := (h.of_holds held).2
      simpa [setCall, CallPc.waiting, Call.Unused] using unused
  | received pc channel =>
    apply Fresh.update (c := c) h
    · exact other _
    · exact fun _ _ => id
    · exact fun _ _ => id
    · simp [keepsSender]
    · intro held
      have empty := (h.of_holds held).2.1
      simp [channel] at empty
  | disconnected pc channel gone =>
    apply Fresh.update (c := c) h
    · exact other _
    · exact fun _ _ => id
    · exact fun _ _ => id
    · simp [keepsSender]
    · intro held
      refine absurd ?_ gone
      rcases held with held | ⟨ret, carries⟩
      · exact .inl ((Table.holds_iff ..).mpr held)
      · have carries : b.reader = .deliver ret c := carries
        exact .inr (by simp [carries, ReaderThread.carries])
  | poisoned pc | lockWriter pc | allocated pc | panicked pc | written pc | failed pc
  | lockPending pc =>
    apply Fresh.update (c := c) h
    · exact other _
    · exact fun _ _ => id
    · exact fun _ _ => id
    · have unused := h.own c (by rw [pc]; rfl)
      intro _
      simpa [setCall, Call.Unused] using unused
    · intro held
      have waiting := (h.of_holds held).1
      simp [pc, CallPc.waiting] at waiting

/-- What has been taken out of the map is sent to, and kept nowhere else. -/
theorem fresh_send {b b' : Bridge} {tx : CallId} {message : Except IoError RetSubmit}
    {call : Call} (h : b.Fresh) (send : (b.calls tx).send message = some call)
    (held : (∃ k, b.pending.lookup k = some tx) ∨ ∃ ret, b.reader = .deliver ret tx)
    (calls : b'.calls = (b.setCall tx call).calls)
    (pending : ∀ k d, b'.pending.lookup k = some d → b.pending.lookup k = some d)
    (reader : ∀ ret d, b'.reader = .deliver ret d → b.reader = .deliver ret d)
    (gone : (∀ k, b'.pending.lookup k ≠ some tx) ∧ ∀ ret, b'.reader ≠ .deliver ret tx) :
    b'.Fresh := by
  apply Fresh.update (c := tx) h
  · intro d hd
    rw [calls, setCall_calls_of_ne b call hd]
  · exact pending
  · exact reader
  · have waiting := (h.of_holds held).1
    have pc : (b'.calls tx).pc = (b.calls tx).pc := by rw [calls, pc_send send]
    intro keeps
    rw [pc] at keeps
    rcases (waiting_iff _).mp waiting with here | here <;> simp [here, keepsSender] at keeps
  · rintro (⟨k, lookup⟩ | ⟨ret, carries⟩)
    · exact absurd lookup (gone.1 k)
    · exact absurd carries (gone.2 ret)

theorem fresh_threadMove {b b' : Bridge} (h : b.Fresh) (move : ThreadMove b b') : b'.Fresh := by
  cases move with
  | reading pc | submit pc | unlink pc | error pc | lockPending pc | lockDrain pc | drained pc =>
    apply Fresh.of_calls h
    · rfl
    · exact fun _ _ => id
    · intro ret d carries
      simp [pc] at carries
  | @found ret tx pc lookup =>
    have waiting := h.held _ tx lookup
    constructor
    · exact h.own
    · intro k c kept
      exact h.held k c (Table.lookup_of_erase kept)
    · intro ret' c carries
      obtain ⟨-, rfl⟩ := ReaderThread.deliver.inj carries
      exact waiting
    · intro j k c hj hk
      exact h.once j k c (Table.lookup_of_erase hj) (Table.lookup_of_erase hk)
    · intro ret' c k carries kept
      obtain ⟨-, rfl⟩ := ReaderThread.deliver.inj carries
      exact h.lookup_erase_ne lookup k kept
  | unknown pc =>
    apply Fresh.of_calls h
    · rfl
    · exact fun _ _ => Table.lookup_of_erase
    · rintro ret d ⟨⟩
  | @deliver ret tx call pc send =>
    apply fresh_send h send (.inr ⟨ret, pc⟩)
    · rfl
    · exact fun _ _ => id
    · rintro ret d ⟨⟩
    · refine ⟨fun k => h.apart ret tx k pc, ?_⟩
      rintro ret' ⟨⟩

theorem fresh_step {b b' : Bridge} {a : Action} (h : b.Fresh) (step : b.step a = some b') :
    b'.Fresh := by
  cases step_cases step with
  | @start c request idle =>
    apply Fresh.update (c := c) h
    · exact fun d hd => setCall_calls_of_ne b _ hd
    · exact fun _ _ => id
    · exact fun _ _ => id
    · intro _
      rw [setCall_calls_self]
      exact ⟨rfl, rfl⟩
    · intro held
      have waiting := (h.of_holds held).1
      simp [idle, CallPc.waiting] at waiting
  | call move => exact fresh_callMove h move
  | reader move => exact fresh_threadMove h move
  | @drain seqnum tx call pc lookup send =>
    apply fresh_send h send (.inl ⟨seqnum, lookup⟩)
    · rfl
    · exact fun _ _ => Table.lookup_of_erase
    · exact fun _ _ => id
    · constructor
      · exact h.lookup_erase_ne lookup
      · intro ret carries
        have carries : b.reader = .deliver ret tx := carries
        rw [pc] at carries
        cases carries
  | deliver | close => exact h.of_calls rfl (fun _ _ => id) (fun _ _ => id)

theorem fresh_reachable {build : Build} {c : UsbipConnection} {b : Bridge}
    (run : Reaches Bridge.step always (new (.ofConnection build c)) b) : b.Fresh :=
  run.invariant Fresh (fresh_new _) fun _ _ _ h _ step => fresh_step h step

/-- A send to a sender that is kept does not wait. -/
theorem Fresh.send_some {b : Bridge} (h : b.Fresh) {tx : CallId}
    (held : (∃ k, b.pending.lookup k = some tx) ∨ ∃ ret, b.reader = .deliver ret tx)
    (message : Except IoError RetSubmit) :
    (b.calls tx).send message = some { b.calls tx with
      channel := [message], sends := (b.calls tx).sends + 1 } := by
  obtain ⟨waiting, empty, -⟩ := h.of_holds held
  have alive : (b.calls tx).pc.dropped = false := by
    rcases (waiting_iff _).mp waiting with here | here <;> rw [here] <;> rfl
  simp [Call.send, alive, empty]

end Bridge

end UsbipDevirt
