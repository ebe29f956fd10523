import UsbipDevirt.BridgeSafety
import UsbipDevirt.ResponseStream

/-!
# Replies to submitted URBs

Three questions about `UsbipBridge::submit`: whether a caller can get a reply
that is not its own, whether a reply can miss its caller, and whether a caller
can outlive the reader thread. The first cannot happen. The other two can,
because the sender is inserted in `bridge.pending` only after the command is on
the wire; for each, the runs in which it does not happen are described.
-/

namespace UsbipDevirt

/-- The number is allocated and the sender not yet inserted. -/
def CallPc.registering : CallPc → Bool
  | .sending | .lockPending _ | .insert _ => true
  | _ => false

namespace Bridge

open Transition

/-! ## The right caller, at most once -/

/-- What a caller may rely on in one state. -/
structure RepliesMatched (b : Bridge) : Prop where
  /-- `Ok(ret)` was decoded from a RET_SUBMIT with the number this call was
  given, and has the direction it asked for. -/
  own : ∀ c ret, (b.calls c).pc = .returned (.ok ret) →
    ∃ header, (header, ret) ∈ b.split.decoded ∧ header.command = usbipRetSubmit ∧
      ret.seqnum = header.seqnum ∧ (b.calls c).seqnum = some header.seqnum ∧
      ret.direction = (b.calls c).request.direction
  /-- Numbers belong to one call each, and no number is answered twice. -/
  numbers : ∀ c d k, (b.calls c).seqnum = some k → (b.calls d).seqnum = some k → c = d
  answers : (b.split.decoded.map (·.2.seqnum)).Nodup
  once : ∀ c d ret ret', (b.calls c).pc = .returned (.ok ret) →
    (b.calls d).pc = .returned (.ok ret') → ret.seqnum = ret'.seqnum → c = d
  sends : ∀ c, (b.calls c).sends ≤ 1
  /-- Neither the delivery of a reply nor the drain ever waits at a channel. -/
  deliver : ∀ ret tx, b.reader = .deliver ret tx → b.step .reader ≠ none
  drain : ∀ k tx, b.reader = .draining → b.pending.lookup k = some tx → b.step (.drain k) ≠ none

theorem Inv.returned_ok {b : Bridge} (h : b.Inv) {c : CallId} {ret : RetSubmit}
    (pc : (b.calls c).pc = .returned (.ok ret)) :
    (b.calls c).seqnum = some ret.seqnum ∧ ret ∈ b.handled := by
  cases h.progress c with
  | returned pc' seqnum channel sends wrote owed =>
    obtain rfl := CallPc.returned.inj (pc.symm.trans pc')
    exact ⟨owed.1 ▸ seqnum, owed.2⟩
  | failed pc' => simp [pc] at pc'
  | unnumbered pc' | waiting pc' | answered pc' =>
    simp [pc, CallPc.unnumbered, CallPc.waiting] at pc'
  | sending pc' | registering pc' => simp [pc] at pc'

theorem Inv.returned_wrote {b : Bridge} (h : b.Inv) {c : CallId} {ret : RetSubmit}
    (pc : (b.calls c).pc = .returned (.ok ret)) : (b.calls c).wrote = true := by
  cases h.progress c with
  | returned _ _ _ _ wrote => exact wrote
  | failed pc' => simp [pc] at pc'
  | unnumbered pc' | waiting pc' | answered pc' =>
    simp [pc, CallPc.unnumbered, CallPc.waiting] at pc'
  | sending pc' | registering pc' => simp [pc] at pc'

theorem Inv.sends_le {b : Bridge} (h : b.Inv) (c : CallId) : (b.calls c).sends ≤ 1 := by
  cases h.progress c with
  | unnumbered _ _ unused | sending _ unused | registering _ _ unused | waiting _ _ unused
  | failed _ unused => rw [unused.2]; exact Nat.zero_le 1
  | answered _ _ _ sends | returned _ _ _ sends => exact Nat.le_of_eq sends

theorem Inv.repliesMatched {b : Bridge} (h : b.Inv) (bound : b.split.issued.length ≤ 2 ^ 32) :
    b.RepliesMatched where
  own c ret pc := by
    obtain ⟨hseq, hret⟩ := h.returned_ok pc
    obtain ⟨header, hmem⟩ := h.handled_decoded hret
    obtain ⟨hcommand, hsame, args, hissued, hdirection⟩ := h.split.decoded header ret hmem
    refine ⟨header, hmem, hcommand, hsame, hsame ▸ hseq, ?_⟩
    obtain rfl := Command.submit.inj ((h.numbered c _ hseq).unique bound hissued)
    exact hdirection.symm
  numbers := h.own
  answers := h.decoded_seqnums_nodup
  once c d ret ret' hc hd same :=
    h.own c d ret.seqnum (h.returned_ok hc).1 (same ▸ (h.returned_ok hd).1)
  sends := h.sends_le
  deliver ret tx pc := by
    simp [Bridge.step, Bridge.readerStep, pc, h.send_held (.inr ⟨ret, pc, rfl⟩)]
  drain k tx pc lookup := by
    simp [Bridge.step, Bridge.drainStep, pc, lookup, h.send_held (.inl lookup)]

/-- For any server and any interleaving, as long as the counter has not reached its limit. -/
theorem replies_matched {build : Build} {input : Input} {output : Output} {busnum devnum : UInt32}
    {b : Bridge} (run : Reaches step always (imported build input output busnum devnum) b)
    (bound : b.split.issued.length < 2 ^ 32 - 1) : b.RepliesMatched :=
  (Inv.of_run run bound).repliesMatched (by omega)

/-! ## A server that answers one request -/

/-- A bulk IN request. -/
def bulkIn : UrbRequest where
  ep := 1
  direction := .in
  setup := List.Vector.replicate 8 0
  data := []
  transferBufferLength := 64

def firstHeader : RetSubmitHeader where
  command := usbipRetSubmit
  seqnum := 1
  devid := 0
  direction := 0
  ep := 0
  status := 0
  actualLength := 2
  startFrame := 0
  numberOfPackets := 0
  errorCount := 0
  padding := List.Vector.replicate 8 0

/-- The answer to the first request, with two bytes of data. -/
def firstReply : Message := .submit firstHeader [0xab, 0xcd]

def device : Bridge :=
  imported .release ⟨[], ⟨.unexpectedEof, "failed to fill whole buffer"⟩⟩ ⟨[], []⟩ 1 2

/-- Call 0 up to the write of its command. -/
def sendFirst : List Action := .start 0 bulkIn :: List.replicate 5 (.call 0 [])

/-- The call on to `rx.recv()`. -/
def insertFirst : List Action := List.replicate 4 (.call 0 [])

/-- The reader thread takes one RET_SUBMIT off the socket and looks its number up. -/
def lookUpReply : List Action := List.replicate 7 .reader

def hasReply (call : Call) : Bool :=
  match call.pc with
  | .returned (.ok _) => true
  | _ => false

/-- Two calls send their commands, the one that was second is answered first, and both
take their replies. -/
def answeredCrosswise : List Action :=
  [.start 0 bulkIn, .start 1 bulkIn] ++ List.replicate 9 (.call 1 []) ++
    List.replicate 9 (.call 0 []) ++
    [.deliver (encodeAll [.submit (retSubmitHeader 2 2) [0xab, 0xcd],
      .submit (retSubmitHeader 1 3) [1, 0, 4]])] ++
    List.replicate 16 .reader ++ [.call 1 [], .call 0 []]

/-- The call has the reply with this number and these data. -/
def returnsReply (seqnum : UInt32) (data : List UInt8) (call : Call) : Bool :=
  match call.pc with
  | .returned (.ok ret) => decide (call.seqnum = some seqnum ∧ ret.seqnum = seqnum ∧
      ret.data = data)
  | _ => false

theorem replies_matched_crossed : ∃ b : Bridge, returnsReply 1 [1, 0, 4] (b.calls 1) = true ∧
    returnsReply 2 [0xab, 0xcd] (b.calls 0) = true ∧ b.RepliesMatched := by
  obtain ⟨b, run, found⟩ := Reaches.of_exec_any step always_of_anyStep device answeredCrosswise
    (fun b => returnsReply 1 [1, 0, 4] (b.calls 1) && returnsReply 2 [0xab, 0xcd] (b.calls 0) &&
      decide (b.split.issued.length < 2 ^ 32 - 1)) (by decide +kernel)
  simp only [Bool.and_eq_true, decide_eq_true_eq] at found
  exact ⟨b, found.1.1, found.1.2, replies_matched run found.2⟩

/-! ## No reply lost -/

/-- The reader thread looks no number up while the call that was given it has
yet to insert its sender. -/
def InsertedFirst (b : Bridge) : Action → Prop
  | .reader => ∀ ret, b.reader = .remove ret → ∀ c, (b.calls c).seqnum = some ret.seqnum →
      (b.calls c).pc.registering = false
  | _ => True

/-- Every RET_SUBMIT the reader thread is done with has reached the call that
sent the command, and no call is left to wait for it. -/
structure NoReplyLost (b : Bridge) : Prop where
  reached : ∀ ret ∈ b.handled, ∀ c, (b.calls c).seqnum = some ret.seqnum →
    (b.calls c).wrote = true →
    .ok ret ∈ (b.calls c).channel ∨ (b.calls c).pc = .returned (.ok ret)
  notBlocked : ∀ ret ∈ b.handled, ∀ c, (b.calls c).seqnum = some ret.seqnum →
    (b.calls c).pc = .recv → (b.calls c).channel ≠ []

/-- How a call stands to the RET_SUBMIT with its number once that is handled. -/
def Settled (ret : RetSubmit) (call : Call) : Prop :=
  (call.wrote = false ∧ ∃ e, call.pc = .returned (.error e)) ∨
    .ok ret ∈ call.channel ∨ call.pc = .returned (.ok ret)

def AllSettled (b : Bridge) : Prop :=
  ∀ ret ∈ b.handled, ∀ c, (b.calls c).seqnum = some ret.seqnum → Settled ret (b.calls c)

theorem AllSettled.noReplyLost {b : Bridge} (settled : b.AllSettled) : b.NoReplyLost where
  reached ret hret c hseq hwrote := by
    rcases settled ret hret c hseq with ⟨hnot, _⟩ | hreply
    · simp [hwrote] at hnot
    · exact hreply
  notBlocked ret hret c hseq pc hempty := by
    rcases settled ret hret c hseq with ⟨_, e, hpc⟩ | hmem | hpc
    · simp [pc] at hpc
    · simp [hempty] at hmem
    · simp [pc] at hpc

/-- Nothing is sent to a call before it has given its sender away. -/
theorem Progress.unused {b : Bridge} {c : CallId} {call : Call} (h : b.Progress c call)
    (waiting : call.pc.waiting = false) (running : ∀ r, call.pc ≠ .returned r) : call.Unused := by
  cases h with
  | unnumbered _ _ unused => exact unused
  | sending _ unused => exact unused
  | registering _ _ unused => exact unused
  | waiting pc | answered pc => simp [waiting] at pc
  | failed pc | returned pc => exact absurd pc (running _)

/-- A call that moves does not lose what is settled. -/
theorem Inv.settled_callStep {b b' : Bridge} {c : CallId} {fates : List Fate} (h : b.Inv)
    (settled : b.AllSettled) (move : b.callStep c fates = some b')
    (bound : b.split.issued.length < 2 ^ 32) : b'.AllSettled := by
  -- only the moving call can change, and a settled one moves only to take its message
  have self : ∀ call : Call, call.seqnum = (b.calls c).seqnum →
      (∀ ret, Settled ret (b.calls c) → Settled ret call) →
      (b.setCall c call).AllSettled := by
    intro call hsame hkeep ret hret d hseq
    by_cases hd : d = c
    · subst hd
      rw [setCall_calls_self] at hseq ⊢
      exact hkeep ret (settled ret hret d (hsame ▸ hseq))
    · rw [setCall_calls_of_ne b call hd] at hseq ⊢
      exact settled ret hret d hseq
  have unsettled : ∀ ret, (b.calls c).pc.waiting = false →
      (∀ r, (b.calls c).pc ≠ .returned r) → ¬ Settled ret (b.calls c) := by
    rintro ret hwait hpc (⟨_, e, hr⟩ | hmem | hr)
    · exact hpc _ hr
    · simp [((h.progress c).unused hwait hpc).1] at hmem
    · exact hpc _ hr
  cases callStep_cases move with
  | poisoned pc | lockWriter pc | panicked pc | written pc | failed pc | lockPending pc
  | insert pc =>
    exact self _ rfl fun ret hs =>
      absurd hs (unsettled ret (by simp [pc, CallPc.waiting]) (by simp [pc]))
  | @allocated split seqnum cmd pc call writer =>
    intro ret hret d hseq
    by_cases hd : d = c
    · subst hd
      obtain ⟨header, hmem⟩ := h.handled_decoded hret
      obtain ⟨args, hissued, _⟩ := (h.split.decoded header ret hmem).2.2
      have new : seqnum = keyAt b.split.issued.length := by
        obtain ⟨_, ⟨_, rfl⟩ | ⟨_, next, halloc, rfl⟩⟩ := Split.call_cases call
        · cases writer
        · obtain ⟨rfl, rfl⟩ := WriterPc.lockInsert.inj writer
          exact (allocSeqnum_cases halloc).1.trans h.split.counter
      have hkey : seqnum = ret.seqnum := by simpa using hseq
      exact absurd (hkey ▸ new) (hissued.ne_next bound)
    · simp only [setCall_calls_of_ne b _ hd] at hseq ⊢
      exact settled ret hret d hseq
  | writing => exact settled
  | unlockWriter pc =>
    refine self _ rfl ?_
    rintro ret (⟨_, e, hpc⟩ | hmem | hpc)
    · simp [pc] at hpc
    · exact .inr (.inl hmem)
    · simp [pc] at hpc
  | @received message rest pc channel =>
    refine self _ rfl ?_
    rintro ret (⟨_, e, hpc⟩ | hmem | hpc)
    · simp [pc] at hpc
    · obtain ⟨_, _, _, ⟨hunused, _⟩ | ⟨message', hchannel, _⟩⟩ :=
        (h.progress c).of_waiting (.inr pc)
      · simp [hunused.1] at channel
      · obtain ⟨rfl, rfl⟩ := List.cons.inj (channel.symm.trans hchannel)
        rw [hchannel, List.mem_singleton] at hmem
        exact .inr (.inr (by rw [hmem]))
    · simp [pc] at hpc
  | disconnected pc channel gone =>
    refine self _ rfl ?_
    rintro ret (⟨_, e, hpc⟩ | hmem | hpc)
    · simp [pc] at hpc
    · simp [channel] at hmem
    · simp [pc] at hpc

/-- Sending to a call whose sender is held settles it or concerns no handled reply. -/
theorem Inv.not_settled_of_held {b : Bridge} (h : b.Inv) {k : UInt32} {tx : CallId}
    (held : b.Held k tx) (ret : RetSubmit) : ¬ Settled ret (b.calls tx) := by
  obtain ⟨_, hwait, hempty, _⟩ := h.held k tx held
  rintro (⟨_, e, hpc⟩ | hmem | hpc)
  · simp [hpc, CallPc.waiting] at hwait
  · simp [hempty] at hmem
  · simp [hpc, CallPc.waiting] at hwait

theorem Inv.settled_readerStep {b b' : Bridge} (h : b.Inv) (settled : b.AllSettled)
    (first : b.InsertedFirst .reader) (move : b.readerStep = some b') : b'.AllSettled := by
  cases readerStep_cases move with
  | @unknown ret pc lookup =>
    have new : ∀ old ∈ b.handled, old.seqnum ≠ ret.seqnum := by
      have nodup := h.replies_nodup
      simp only [pc, ReaderThread.carried, List.map_append, List.nodup_append, List.map_cons,
        List.map_nil] at nodup
      exact fun old hold => nodup.2.2 _ (List.mem_map_of_mem hold) _ (by simp)
    -- nothing but this very reply can have been owed to the call that was given the number
    have notOwed : ∀ k message, k = ret.seqnum → ¬ b.Owed k message := by
      rintro k message rfl howed
      cases message with
      | ok old => exact new old howed.2 howed.1
      | error e => simp [Owed, pc, ReaderThread.ended] at howed
    intro r hr c hseq
    rcases List.mem_append.mp hr with hr | hr
    · exact settled r hr c hseq
    · obtain rfl := List.mem_singleton.mp hr
      have hseq : (b.calls c).seqnum = some r.seqnum := hseq
      have here := first r pc c hseq
      cases h.progress c with
      | unnumbered _ hnone => simp [hnone] at hseq
      | sending hpc => simp [hpc, CallPc.registering] at here
      | registering hpc => rcases hpc with hpc | hpc <;> simp [hpc, CallPc.registering] at here
      | waiting _ hk _ _ held =>
        obtain rfl := Option.some.inj (hk.symm.trans hseq)
        rw [held_iff_lookup (by simp [pc]), lookup] at held
        cases held
      | answered _ hk _ _ _ owed =>
        exact absurd owed (notOwed _ _ (Option.some.inj (hk.symm.trans hseq)))
      | failed hpc _ hwrote => exact .inl ⟨hwrote, _, hpc⟩
      | returned _ hk _ _ _ owed =>
        exact absurd owed (notOwed _ _ (Option.some.inj (hk.symm.trans hseq)))
  | @deliver ret tx call pc send =>
    have held : b.Held ret.seqnum tx := .inr ⟨ret, pc, rfl⟩
    obtain rfl := Option.some.inj ((h.send_held held (.ok ret)).symm.trans send)
    intro r hr c hseq
    by_cases hc : c = tx
    · subst hc
      have hseq : (b.calls c).seqnum = some r.seqnum := by simpa using hseq
      rcases List.mem_append.mp hr with hr | hr
      · exact absurd (settled r hr c hseq) (h.not_settled_of_held held r)
      · obtain rfl := List.mem_singleton.mp hr
        exact .inr (.inl (by simp))
    · simp only [setCall_calls_of_ne b _ hc] at hseq ⊢
      rcases List.mem_append.mp hr with hr | hr
      · exact settled r hr c hseq
      · obtain rfl := List.mem_singleton.mp hr
        exact absurd (h.own c tx _ hseq (h.held _ tx held).1) hc
  | reading | submit | unlink | error | lockPending | found | lockDrain | drained => exact settled

theorem Inv.settled_step {b b' : Bridge} {a : Action} (h : b.Inv) (settled : b.AllSettled)
    (first : b.InsertedFirst a) (move : b.step a = some b')
    (bound : b'.split.issued.length < 2 ^ 32) : b'.AllSettled := by
  cases step_cases move with
  | @start c request pc =>
    intro ret hret d hseq
    by_cases hd : d = c
    · subst hd
      simp [Call.idle] at hseq
    · rw [setCall_calls_of_ne b _ hd] at hseq ⊢
      exact settled ret hret d hseq
  | call =>
    exact h.settled_callStep settled move (Nat.lt_of_le_of_lt (issued_length_le move) bound)
  | reader => exact h.settled_readerStep settled first move
  | @drain seqnum tx call pc lookup send =>
    have held : b.Held seqnum tx := .inl lookup
    obtain rfl := Option.some.inj ((h.send_held held (.error readerTerminated)).symm.trans send)
    intro ret hret d hseq
    by_cases hd : d = tx
    · subst hd
      exact absurd (settled ret hret d (by simpa using hseq)) (h.not_settled_of_held held ret)
    · simp only [setCall_calls_of_ne b _ hd] at hseq ⊢
      exact settled ret hret d hseq
  | deliver | close => exact settled

/-- Against any server, no reply is lost in a run in which every sender is
inserted before the reader thread looks its number up. -/
theorem no_reply_lost {build : Build} {input : Input} {output : Output} {busnum devnum : UInt32}
    {b : Bridge} (run : Reaches step InsertedFirst (imported build input output busnum devnum) b)
    (bound : b.split.issued.length < 2 ^ 32 - 1) : b.NoReplyLost := by
  have both : b.Inv ∧ b.AllSettled := by
    refine invariant_below (fun b => b.Inv ∧ b.AllSettled) ⟨.initial .., nofun⟩ ?_ run bound
    intro b a b' ⟨h, settled⟩ first move hlen
    exact ⟨h.step move (by omega), h.settled_step settled first move (by omega)⟩
  exact both.2.noReplyLost

/-- The server has received the whole CMD_SUBMIT with this number. -/
def Received (b : Bridge) (seqnum : UInt32) : Prop :=
  ∃ before args after,
    b.split.sent = before ++ (Command.submit args).encode seqnum b.split.devid ++ after

/-- The server sends whole responses, and a RET_SUBMIT only for a CMD_SUBMIT it has received. -/
def ServerConforms (b : Bridge) : Action → Prop
  | .deliver bytes => ∃ ms, bytes = encodeAll ms ∧ ∀ header payload,
      .submit header payload ∈ ms → header.command = usbipRetSubmit ∧ b.Received header.seqnum
  | _ => True

/-- Steps that are not the server's. -/
def notDelivery (_ : Bridge) : Action → Bool
  | .deliver _ => false
  | _ => true

theorem conforms_of_notDelivery (b : Bridge) (a : Action) (h : notDelivery b a = true) :
    ServerConforms b a := by
  cases a with
  | deliver bytes => cases h
  | _ => trivial

/-- Call 0 waits at an empty channel although its reply was handled. -/
def waitsForHandled (b : Bridge) : Bool :=
  match (b.calls 0).pc with
  | .recv => b.handled.any fun ret =>
      decide ((b.calls 0).seqnum = some ret.seqnum ∧ (b.calls 0).channel = [])
  | _ => false

/-- The server is quicker than the call: its reply is looked up and dropped
before the sender is inserted, and the call waits for ever. -/
theorem reply_lost_before_insert :
    ∃ b, Reaches step ServerConforms device b ∧ b.split.issued.length < 2 ^ 32 - 1 ∧
      ¬ b.NoReplyLost := by
  obtain ⟨b₁, run₁, found₁⟩ := Reaches.of_exec_any step conforms_of_notDelivery device
    sendFirst (fun b =>
      decide (b.split.sent = (Command.submit bulkIn.args).encode 1 b.split.devid) &&
      (b.step (.deliver firstReply.encode)).any fun b =>
        (exec (restrict notDelivery step) b (lookUpReply ++ insertFirst)).any fun b =>
          waitsForHandled b && decide (b.split.issued.length < 2 ^ 32 - 1))
    (by decide +kernel)
  simp only [Bool.and_eq_true, decide_eq_true_iff, Option.any_eq_true] at found₁
  obtain ⟨hsent, b₂, hdeliver, b₃, hrest, hwaits, hlen⟩ := found₁
  have conforms : ServerConforms b₁ (.deliver firstReply.encode) := by
    refine ⟨[firstReply], by simp [encodeAll], ?_⟩
    intro header payload hmem
    obtain ⟨rfl, rfl⟩ := Message.submit.inj (List.mem_singleton.mp hmem)
    refine ⟨rfl, [], bulkIn.args, [], ?_⟩
    rw [hsent, List.nil_append, List.append_nil]
    rfl
  have run : Reaches step ServerConforms device b₃ :=
    (run₁.next conforms hdeliver).trans (.of_exec conforms_of_notDelivery hrest)
  refine ⟨b₃, run, hlen, fun noneLost => ?_⟩
  unfold waitsForHandled at hwaits
  split at hwaits
  · next hpc =>
    obtain ⟨ret, hret, hcall⟩ := List.any_eq_true.mp hwaits
    obtain ⟨hseq, hempty⟩ := of_decide_eq_true hcall
    exact noneLost.notBlocked ret hret 0 hseq hpc hempty
  · cases hwaits

/-- Steps other than the lookup in `bridge.pending`. -/
def notLookup (b : Bridge) : Action → Bool
  | .reader => match b.reader with
    | .remove _ => false
    | _ => true
  | _ => true

theorem insertedFirst_of_notLookup (b : Bridge) (a : Action) (h : notLookup b a = true) :
    InsertedFirst b a := by
  cases a with
  | reader =>
    intro ret hret
    simp [notLookup, hret] at h
  | _ => trivial

/-- The same exchange with the insert in time. -/
theorem no_reply_lost_first : ∃ b : Bridge, hasReply (b.calls 0) = true ∧ b.NoReplyLost := by
  obtain ⟨b₁, run₁, found₁⟩ := Reaches.of_exec_any step insertedFirst_of_notLookup device
    (sendFirst ++ insertFirst ++ [.deliver firstReply.encode] ++ List.replicate 6 .reader)
    (fun b =>
      decide ((b.calls 0).seqnum = some 1 ∧ (b.calls 0).pc.registering = false ∧
        b.split.issued.length < 2 ^ 32 - 1 ∧ b.reader.carried.map (·.seqnum) = [1]) &&
      (b.step .reader).any fun b =>
        (exec (restrict notLookup step) b [.reader, .call 0 []]).any fun b : Bridge =>
          hasReply (b.calls 0) && decide (b.split.issued.length < 2 ^ 32 - 1))
    (by decide +kernel)
  simp only [Bool.and_eq_true, decide_eq_true_iff, Option.any_eq_true] at found₁
  obtain ⟨⟨hseq, hinserted, hlen₁, hcarried⟩, b₂, hlookup, b₃, hrest, hreply, hlen⟩ := found₁
  have first : InsertedFirst b₁ .reader := by
    intro ret hret c hc
    have hone : ret.seqnum = 1 := by simpa [hret, ReaderThread.carried] using hcarried
    obtain rfl := (Inv.of_run run₁ hlen₁).own c 0 1 (hone ▸ hc) hseq
    exact hinserted
  have run : Reaches step InsertedFirst device b₃ :=
    (run₁.next first hlookup).trans (.of_exec insertedFirst_of_notLookup hrest)
  exact ⟨b₃, hreply, no_reply_lost run hlen⟩

/-! ## The death of the reader thread -/

/-- No call waits at an empty channel for a sender that only the map still holds. -/
def NoneStranded (b : Bridge) : Prop :=
  ¬ (b.reader = .finished ∧ ∃ c k, (b.calls c).pc = .recv ∧ (b.calls c).channel = [] ∧
    b.pending.lookup k = some c)

/-- No sender is inserted after the drain. -/
def InsertedBeforeEnd (b : Bridge) : Action → Prop
  | .call c _ => ∀ k, (b.calls c).pc = .insert k → b.reader ≠ .finished
  | _ => True

/-- The drain leaves the map empty, and only a late insert can fill it again. -/
theorem empty_after_drain {b b' : Bridge} {a : Action}
    (empty : b.reader = .finished → b.pending = ∅) (early : b.InsertedBeforeEnd a)
    (move : b.step a = some b') (finished : b'.reader = .finished) : b'.pending = ∅ := by
  cases step_cases move with
  | call moved =>
    cases moved with
    | insert pc => exact absurd finished (early _ pc)
    | _ => exact empty finished
  | reader moved =>
    cases moved with
    | reading pc | unlink pc => exact empty finished
    | drained pc hempty => exact hempty
    | submit | error | lockPending | found | unknown | deliver | lockDrain => cases finished
  | drain pc =>
    have finished : b.reader = .finished := finished
    simp [pc] at finished
  | start | deliver | close => exact empty finished

theorem none_stranded {build : Build} {input : Input} {output : Output} {busnum devnum : UInt32}
    {b : Bridge}
    (run : Reaches step InsertedBeforeEnd (imported build input output busnum devnum) b) :
    b.NoneStranded := by
  have empty : b.reader = .finished → b.pending = ∅ :=
    run.invariant (fun b => b.reader = .finished → b.pending = ∅) (fun _ => rfl)
      fun _ _ _ h early move => empty_after_drain h early move
  rintro ⟨finished, c, k, _, _, held⟩
  simp [empty finished] at held

/-- The stream ends, and the reader thread drains what there is and finishes. -/
def endReader : List Action :=
  .close ⟨.unexpectedEof, "failed to fill whole buffer"⟩ :: List.replicate 4 .reader

def stranded (b : Bridge) : Bool :=
  match b.reader, (b.calls 0).pc with
  | .finished, .recv => decide ((b.calls 0).channel = [] ∧ b.pending.lookup 1 = some 0)
  | _, _ => false

theorem not_noneStranded_of {b : Bridge} (h : stranded b = true) : ¬ b.NoneStranded := by
  unfold stranded at h
  split at h
  · next hreader hpc =>
    obtain ⟨hempty, hheld⟩ := of_decide_eq_true h
    exact fun none => none ⟨hreader, 0, 1, hpc, hempty, hheld⟩
  · cases h

/-- The reader thread has finished and call 0 has yet to start. -/
def drained (b : Bridge) : Bool :=
  match b.reader, (b.calls 0).pc with
  | .finished, .idle => true
  | _, _ => false

/-- Two ways to be stranded: the drain runs between the write of a command and
the insert of its sender, and the call starts after the drain. -/
theorem stranded_after_drain :
    (∃ b, Reaches step always device b ∧ ¬ b.NoneStranded) ∧
    ∃ b b', Reaches step always device b ∧ b.reader = .finished ∧ (b.calls 0).pc = .idle ∧
      Reaches step always b b' ∧ ¬ b'.NoneStranded := by
  constructor
  · obtain ⟨b, run, found⟩ := Reaches.of_exec_any step always_of_anyStep device
      (sendFirst ++ endReader ++ insertFirst) stranded (by decide +kernel)
    exact ⟨b, run, not_noneStranded_of found⟩
  · obtain ⟨b, run, found⟩ := Reaches.of_exec_any step always_of_anyStep device
      endReader (fun b => drained b &&
        (exec (restrict anyStep step) b (sendFirst ++ insertFirst)).any stranded)
      (by decide +kernel)
    simp only [Bool.and_eq_true, Option.any_eq_true] at found
    obtain ⟨hdrained, b', hrest, hstranded⟩ := found
    unfold drained at hdrained
    split at hdrained
    · next hreader hpc =>
      exact ⟨b, b', run, hreader, hpc, .of_exec always_of_anyStep hrest,
        not_noneStranded_of hstranded⟩
    · cases hdrained

/-- A call whose sender is in the map in time gets the error of the drain. -/
theorem none_stranded_first : ∃ b : Bridge, (b.calls 0).channel = [.error readerTerminated] ∧
    b.NoneStranded := by
  have early : ∀ (b : Bridge) (a : Action),
      (match b.reader with | .finished => false | _ => true) = true → InsertedBeforeEnd b a := by
    intro b a h
    cases a with
    | call c fates =>
      rintro k _ hfinished
      simp [hfinished] at h
    | _ => trivial
  obtain ⟨b, run, found⟩ := Reaches.of_exec_any step early device
    (sendFirst ++ insertFirst ++
      [.close ⟨.unexpectedEof, "failed to fill whole buffer"⟩] ++ List.replicate 3 .reader ++
      [.drain 1, .reader])
    (fun b => decide ((b.calls 0).channel = [.error readerTerminated]))
    (by decide +kernel)
  exact ⟨b, of_decide_eq_true found, none_stranded run⟩

end Bridge

end UsbipDevirt
