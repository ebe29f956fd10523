import UsbipDevirt.SplitSafety

/-!
# Operations of a connection

`send_submit`, `send_unlink` and `recv` of an unsplit connection, each run to
completion, as one machine: an operation, what it returned and the connection
it left behind. The socket is part of the connection, so a run is determined
by its operations, the fates of its writes and the bytes of the server.
-/

namespace UsbipDevirt

open Transition

inductive Operation where
  | send (cmd : Command)
  | recv

inductive Outcome where
  | sent (result : Except IoError UInt32)
  | received (result : Except IoError UrbResponse)

/-- `none` is a panic in `alloc_seqnum`. -/
def UsbipConnection.perform (build : Build) (c : UsbipConnection) :
    Operation → Option (Outcome × UsbipConnection)
  | .send cmd => (c.send build cmd).map fun (result, c) => (.sent result, c)
  | .recv => some (.received c.recv.1, c.recv.2)

def Operation.allocates : Operation → Bool
  | .send _ => true
  | .recv => false

/-- How many sequence numbers the operations allocate. -/
def allocations (ops : List Operation) : ℕ := ops.countP Operation.allocates

@[simp] theorem allocations_nil : allocations [] = 0 := rfl

@[simp] theorem allocations_append (ops more : List Operation) :
    allocations (ops ++ more) = allocations ops + allocations more := List.countP_append

@[simp] theorem allocations_send (cmd : Command) : allocations [.send cmd] = 1 := rfl

@[simp] theorem allocations_recv : allocations [.recv] = 0 := rfl

/-! ## What one operation can do -/

/-- The outcomes of a receiving function. -/
inductive RecvMove (r : ReadSide) : Except IoError UrbResponse × ReadSide → Prop where
  | headerFailed {e input} (read : r.input.readExact 48 = (.error e, input)) :
      RecvMove r (.error e, ⟨input, r.maps⟩)
  | unknownSeqnum {buf input header} (read : r.input.readExact 48 = (.ok buf, input))
      (parsed : parseHeader buf = .retSubmit header)
      (absent : r.maps.pending.lookup header.seqnum = none) :
      RecvMove r (.error (UsbipDevirt.unknownSeqnum header.seqnum), ⟨input, r.maps⟩)
  | payloadFailed {buf input header e input'} (read : r.input.readExact 48 = (.ok buf, input))
      (parsed : parseHeader buf = .retSubmit header)
      (present : r.maps.pending.lookup header.seqnum = some .in)
      (payload : input.readExact header.actualLength.toNat = (.error e, input')) :
      RecvMove r (.error e,
        ⟨input', { r.maps with pending := r.maps.pending.erase header.seqnum }⟩)
  | submit {buf input header direction data input'}
      (read : r.input.readExact 48 = (.ok buf, input))
      (parsed : parseHeader buf = .retSubmit header)
      (present : r.maps.pending.lookup header.seqnum = some direction)
      (payload : input.readExact (if direction = .in then header.actualLength.toNat else 0) =
        (.ok data, input')) :
      RecvMove r (.ok (.submit (header.toRet data direction)),
        ⟨input', { r.maps with pending := r.maps.pending.erase header.seqnum }⟩)
  | unlink {buf input header} (read : r.input.readExact 48 = (.ok buf, input))
      (parsed : parseHeader buf = .retUnlink header) :
      RecvMove r (.ok (.unlink ⟨header.seqnum, header.status⟩),
        ⟨input, r.maps.applyUnlink header⟩)
  | unknownCommand {buf input command} (read : r.input.readExact 48 = (.ok buf, input))
      (parsed : parseHeader buf = .unknown command) :
      RecvMove r (.error (UsbipDevirt.unknownCommand command), ⟨input, r.maps⟩)

theorem Input.readExact_zero (r : Input) : r.readExact 0 = (.ok [], r) := by
  simp [Input.readExact]

theorem recvUrbResponse_cases (r : ReadSide) : RecvMove r (recvUrbResponse r) := by
  unfold recvUrbResponse
  split
  · next hread => exact .headerFailed hread
  · next buf input hread =>
    split
    · next header hparse =>
      split
      · next hd => exact .unknownSeqnum hread hparse hd
      · next direction hd =>
        dsimp only
        split
        · next hin =>
          obtain ⟨rfl, hpos⟩ := hin
          split
          · next hpay => exact .payloadFailed hread hparse hd hpay
          · next hpay => exact .submit hread hparse hd hpay
        · next hnot =>
          refine .submit hread hparse hd ?_
          have none_expected : (if direction = .in then header.actualLength.toNat else 0) = 0 := by
            split
            · next hin =>
              have : ¬ 0 < header.actualLength := fun hpos => hnot ⟨hin, hpos⟩
              simp only [UInt32.lt_iff_toNat_lt, UInt32.toNat_zero] at this
              omega
            · rfl
          rw [none_expected, Input.readExact_zero]
    · next hparse => exact .unlink hread hparse
    · next hparse => exact .unknownCommand hread hparse

/-- One constructor for each way an operation can end. -/
inductive OperationMove (build : Build) (c : UsbipConnection) :
    Operation → Outcome → UsbipConnection → Prop where
  | sent {cmd next output} (alloc : allocSeqnum build c.nextSeqnum = some (c.nextSeqnum, next))
      (ok : cmd.write c.output c.nextSeqnum c.devid = (.ok (), output)) :
      OperationMove build c (.send cmd) (.sent (.ok c.nextSeqnum)) { c with
        output, nextSeqnum := next, maps := c.maps.register c.nextSeqnum cmd }
  | failed {cmd next output e}
      (alloc : allocSeqnum build c.nextSeqnum = some (c.nextSeqnum, next))
      (error : cmd.write c.output c.nextSeqnum c.devid = (.error e, output)) :
      OperationMove build c (.send cmd) (.sent (.error e)) { c with output, nextSeqnum := next }
  | received {out} (decodes : recvUrbResponse ⟨c.input, c.maps⟩ = out)
      (move : RecvMove ⟨c.input, c.maps⟩ out) :
      OperationMove build c .recv (.received out.1) { c with
        input := out.2.input, maps := out.2.maps }

theorem UsbipConnection.perform_cases {build : Build} {c c' : UsbipConnection} {op : Operation}
    {o : Outcome} (h : c.perform build op = some (o, c')) : OperationMove build c op o c' := by
  cases op with
  | send cmd =>
    obtain ⟨r, hr, heq⟩ := Option.map_eq_some_iff.mp h
    cases halloc : allocSeqnum build c.nextSeqnum with
    | none => cases cmd <;> simp [send, sendSubmit, sendUnlink, halloc] at hr
    | some pair =>
      obtain ⟨seqnum, next⟩ := pair
      obtain ⟨rfl, _, _⟩ := allocSeqnum_cases halloc
      cases cmd with
      | submit args =>
        simp only [send, sendSubmit, halloc] at hr
        split at hr <;>
        · next hw =>
          obtain rfl := Option.some.inj hr
          obtain ⟨rfl, rfl⟩ := Prod.mk.inj heq
          first
          | exact .failed halloc hw
          | exact @OperationMove.sent build c (.submit args) _ _ halloc hw
      | unlink target =>
        simp only [send, sendUnlink, halloc] at hr
        split at hr <;>
        · next hw =>
          obtain rfl := Option.some.inj hr
          obtain ⟨rfl, rfl⟩ := Prod.mk.inj heq
          first
          | exact .failed halloc hw
          | exact @OperationMove.sent build c (.unlink target) _ _ halloc hw
  | recv =>
    obtain ⟨rfl, rfl⟩ := Prod.mk.inj (Option.some.inj h)
    exact .received rfl (recvUrbResponse_cases _)

/-! ## The counter and the maps in a run -/

/-- After `n` allocations: the counter, and which numbers can be in the maps. -/
structure UsbipConnection.Allotted (c : UsbipConnection) (n : ℕ) : Prop where
  counter : c.nextSeqnum = keyAt n
  live : ∀ k, c.maps.Live k → ∃ i < n, k = keyAt i

namespace UsbipConnection

variable {build : Build} {c c' : UsbipConnection} {op : Operation} {o : Outcome} {n : ℕ}

theorem Allotted.initial (input : Input) (output : Output) (busnum devnum : UInt32) :
    (imported input output busnum devnum).Allotted 0 where
  counter := rfl
  live k h := absurd h (SharedState.not_live_empty k)

theorem Allotted.perform (h : c.Allotted n) (step : c.perform build op = some (o, c')) :
    c'.Allotted (n + allocations [op]) := by
  have counter {next : UInt32}
      (halloc : allocSeqnum build c.nextSeqnum = some (c.nextSeqnum, next)) :
      next = keyAt (n + 1) := by
    rw [(allocSeqnum_cases halloc).2.1, h.counter, keyAt_succ]
  have later (k : UInt32) (hk : c.maps.Live k) : ∃ i < n + 1, k = keyAt i := by
    obtain ⟨i, hi, rfl⟩ := h.live k hk
    exact ⟨i, Nat.lt_succ_of_lt hi, rfl⟩
  cases perform_cases step with
  | sent alloc =>
    refine ⟨counter alloc, fun k hk => ?_⟩
    rcases SharedState.live_register hk with hk | rfl
    · exact later k hk
    · exact ⟨n, Nat.lt_succ_self n, h.counter⟩
  | failed alloc => exact ⟨counter alloc, later⟩
  | received decodes => exact ⟨h.counter, fun k hk => h.live k (live_of_recv (decodes ▸ hk))⟩

theorem Allotted.fresh (h : c.Allotted n) (bound : n < 2 ^ 32) : ¬ c.maps.Live c.nextSeqnum := by
  intro live
  obtain ⟨i, hi, same⟩ := h.live _ live
  have := keyAt_inj bound (by omega) (h.counter.symm.trans same)
  omega

theorem perform_devid (step : c.perform build op = some (o, c')) : c'.devid = c.devid := by
  cases perform_cases step <;> rfl

/-- Nothing panics as long as the counter is not at its limit. -/
theorem Allotted.performs (h : c.Allotted n) (build : Build) (op : Operation)
    (bound : n + allocations [op] < 2 ^ 32 - 1) : ∃ o c', c.perform build op = some (o, c') := by
  cases op with
  | send cmd =>
    have room : allocSeqnum build c.nextSeqnum ≠ none := by
      rw [ne_eq, allocSeqnum_none_iff, h.counter]
      rintro ⟨_, limit⟩
      simp only [allocations_send] at bound
      have := (keyAt_eq_max_iff (n := n) (by omega)).mp limit
      omega
    obtain ⟨⟨seqnum, next⟩, halloc⟩ := Option.ne_none_iff_exists'.mp room
    cases cmd with
    | submit args =>
      simp only [UsbipConnection.perform, send, sendSubmit, halloc]
      split <;> exact ⟨_, _, rfl⟩
    | unlink target =>
      simp only [UsbipConnection.perform, send, sendUnlink, halloc]
      split <;> exact ⟨_, _, rfl⟩
  | recv => exact ⟨_, _, rfl⟩

end UsbipConnection

/-- An operation that was performed. -/
abbrev Performed := Entry UsbipConnection Operation Outcome

abbrev OperationLog := List Performed

/-- The runs of a connection from its import on. -/
abbrev Operates (build : Build) (start : UsbipConnection) : OperationLog → UsbipConnection → Prop :=
  Logged (UsbipConnection.perform build) start

theorem allotted_of_operates {build : Build} {start c : UsbipConnection} {log : OperationLog}
    {n : ℕ} (initial : start.Allotted n) (run : Operates build start log c) :
    c.Allotted (n + allocations (log.map Entry.action)) := by
  refine run.invariant (fun log c => c.Allotted (n + allocations (log.map Entry.action))) initial
    fun log s a o t ih step => ?_
  simpa [Nat.add_assoc] using ih.perform step

/-- No number is handed out while it is in use. -/
theorem fresh_of_operates {build : Build} {start c : UsbipConnection} {log : OperationLog}
    {n : ℕ} (initial : start.Allotted n) (run : Operates build start log c)
    (bound : n + allocations (log.map Entry.action) < 2 ^ 32) :
    ∀ e ∈ log, ¬ e.before.maps.Live e.before.nextSeqnum := by
  induction run with
  | start => simp
  | @next log s t a o run step ih =>
    simp only [List.map_append, List.map_cons, List.map_nil, allocations_append] at bound
    intro e he
    rcases List.mem_append.mp he with he | he
    · exact ih (by omega) e he
    · obtain rfl := List.mem_singleton.mp he
      exact (allotted_of_operates initial run).fresh (by omega)

/-- Any operations can be performed below the limit of the counter. -/
theorem operates_exists (build : Build) {start : UsbipConnection} {n : ℕ}
    (initial : start.Allotted n) (ops : List Operation)
    (bound : n + allocations ops < 2 ^ 32 - 1) :
    ∃ log c, log.map Entry.action = ops ∧ Operates build start log c := by
  induction ops using List.reverseRecOn with
  | nil => exact ⟨[], start, rfl, .start⟩
  | append_singleton ops op ih =>
    rw [allocations_append] at bound
    obtain ⟨log, c, rfl, run⟩ := ih (by omega)
    obtain ⟨o, c', step⟩ := (allotted_of_operates initial run).performs build op (by omega)
    exact ⟨_, c', by simp, run.next step⟩

end UsbipDevirt
