import Mathlib.Tactic.Abel
import UsbipDevirt.Operations

/-!
# What becomes of every request

A successful `send_submit` puts its number into `pending`. The number leaves
the map in one of three ways: a RET_SUBMIT is returned, a RET_UNLINK reports
that the request was cancelled, or the stream breaks inside a payload. The log
of a run tells which, and the maps hold exactly what is left.
-/

namespace UsbipDevirt

open Transition

/-! ## Reading the log -/

/-- The request of a successful `send_submit`. -/
def submittedBy (e : Performed) : Option (UInt32 × Direction) :=
  match e.action, e.output with
  | .send (.submit args), .sent (.ok seqnum) => some (seqnum, args.direction)
  | _, _ => none

/-- The request of a successful `send_unlink`, with its target. -/
def unlinkSentBy (e : Performed) : Option (UInt32 × UInt32) :=
  match e.action, e.output with
  | .send (.unlink target), .sent (.ok seqnum) => some (seqnum, target)
  | _, _ => none

/-- The request of an `Ok(Submit)` response. -/
def returnedBy (e : Performed) : Option UInt32 :=
  match e.output with
  | .received (.ok (.submit ret)) => some ret.seqnum
  | _ => none

def unlinkReplyOf (e : Performed) : Option RetUnlink :=
  match e.output with
  | .received (.ok (.unlink ret)) => some ret
  | _ => none

/-- The pending request that a RET_UNLINK reports as cancelled. -/
def SharedState.cancels (maps : SharedState) (ret : RetUnlink) : Option UInt32 :=
  if ret.status = -econnreset then
    (maps.unlinks.lookup ret.seqnum).filter (· ∈ maps.pending)
  else none

/-- The request that a RET_UNLINK has removed. -/
def cancelledBy (e : Performed) : Option UInt32 := (unlinkReplyOf e).bind e.before.maps.cancels

/-- The request whose RET_SUBMIT header can be read but not the payload after it. -/
def ReadSide.cutShort (r : ReadSide) : Option UInt32 :=
  match r.input.readExact 48 with
  | (.error _, _) => none
  | (.ok buf, input) =>
    match parseHeader buf with
    | .retSubmit header =>
      match r.maps.pending.lookup header.seqnum, input.readExact header.actualLength.toNat with
      | some .in, (.error _, _) => some header.seqnum
      | _, _ => none
    | _ => none

/-- The request whose RET_SUBMIT header was read by a `recv` that then failed. -/
def brokenBy (e : Performed) : Option UInt32 :=
  match e.action with
  | .recv => ReadSide.cutShort ⟨e.before.input, e.before.maps⟩
  | .send _ => none

def submitted (log : OperationLog) : List (UInt32 × Direction) := log.filterMap submittedBy
def returned (log : OperationLog) : List UInt32 := log.filterMap returnedBy
def cancelled (log : OperationLog) : List UInt32 := log.filterMap cancelledBy
def broken (log : OperationLog) : List UInt32 := log.filterMap brokenBy

/-- A `send_unlink` was given number `k` and no RET_UNLINK with this number has come since. -/
def Outstanding (log : OperationLog) (k target : UInt32) : Prop :=
  ∃ earlier e later, log = earlier ++ e :: later ∧ unlinkSentBy e = some (k, target) ∧
    ∀ r ∈ later, ∀ ret, unlinkReplyOf r = some ret → ret.seqnum ≠ k

theorem submittedBy_eq_some_iff {e : Performed} {k : UInt32} {d : Direction} :
    submittedBy e = some (k, d) ↔
      ∃ args, e.action = .send (.submit args) ∧ e.output = .sent (.ok k) ∧ args.direction = d := by
  unfold submittedBy
  split <;> simp_all

theorem unlinkSentBy_eq_some_iff {e : Performed} {k target : UInt32} :
    unlinkSentBy e = some (k, target) ↔
      e.action = .send (.unlink target) ∧ e.output = .sent (.ok k) := by
  unfold unlinkSentBy
  split <;> simp_all [and_comm]

theorem cancelledBy_eq_some_iff {e : Performed} {target : UInt32} :
    cancelledBy e = some target ↔ ∃ ret, unlinkReplyOf e = some ret ∧ ret.status = -econnreset ∧
      e.before.maps.unlinks.lookup ret.seqnum = some target ∧ target ∈ e.before.maps.pending := by
  simp only [cancelledBy, SharedState.cancels, Option.bind_eq_some_iff]
  refine exists_congr fun ret => and_congr_right fun _ => ?_
  split <;> simp_all [Option.filter_eq_some_iff]

/-! ## One operation -/

section OneOperation

variable {build : Build} {c c' : UsbipConnection} {op : Operation} {o : Outcome}
variable {k target : UInt32} {d : Direction}

theorem SharedState.applyUnlink_keys (maps : SharedState) (header : RetUnlinkHeader) :
    maps.pending.keys.val = (maps.applyUnlink header).pending.keys.val +
      ↑(maps.cancels ⟨header.seqnum, header.status⟩).toList := by
  unfold applyUnlink cancels
  cases hd : maps.unlinks.lookup header.seqnum with
  | none => simp
  | some target =>
    by_cases reset : header.status = -econnreset
    · by_cases present : target ∈ maps.pending
      · simp only [reset, if_true, Option.filter, present, decide_true]
        rw [Table.keys_eq_cons_erase _ _ present]
        simp [-Finmap.keys_erase, ← Multiset.singleton_add, add_comm]
      · simp [reset, present, Option.filter, Table.erase_of_notMem _ _ present, -Finmap.keys_erase]
    · simp [reset]

/-- What a `recv` takes out of `pending` it returns, or reports as cancelled, or loses. -/
theorem balance_recv {r : ReadSide} {out : Except IoError UrbResponse × ReadSide}
    (move : RecvMove r out) (c c' : UsbipConnection) (before : r = ⟨c.input, c.maps⟩) :
    r.maps.pending.keys.val = out.2.maps.pending.keys.val +
      ↑(returnedBy ⟨c, .recv, .received out.1, c'⟩).toList +
      ↑(cancelledBy ⟨c, .recv, .received out.1, c'⟩).toList + ↑r.cutShort.toList := by
  cases move with
  | headerFailed read => simp [returnedBy, cancelledBy, unlinkReplyOf, ReadSide.cutShort, read]
  | unknownSeqnum read parsed absent =>
    simp [returnedBy, cancelledBy, unlinkReplyOf, ReadSide.cutShort, read, parsed, absent]
  | payloadFailed read parsed present payload =>
    have found := Table.keys_eq_cons_erase _ _ (Finmap.mem_of_lookup_eq_some present)
    simp only [returnedBy, cancelledBy, unlinkReplyOf, ReadSide.cutShort, read, parsed, present,
      payload]
    rw [found]
    simp [-Finmap.keys_erase, ← Multiset.singleton_add, add_comm]
  | @submit buf input header direction data input' read parsed present payload =>
    have found := Table.keys_eq_cons_erase _ _ (Finmap.mem_of_lookup_eq_some present)
    have whole : r.cutShort = none := by
      cases direction with
      | «in» =>
        rw [if_pos rfl] at payload
        simp [ReadSide.cutShort, read, parsed, present, payload]
      | out => simp [ReadSide.cutShort, read, parsed, present]
    simp only [returnedBy, cancelledBy, unlinkReplyOf, whole, RetSubmitHeader.toRet]
    rw [found]
    simp [-Finmap.keys_erase, ← Multiset.singleton_add, add_comm]
  | @unlink buf input header read parsed =>
    have balanced := r.maps.applyUnlink_keys header
    have same : c.maps = r.maps := by rw [before]
    simpa [returnedBy, cancelledBy, unlinkReplyOf, ReadSide.cutShort, read, parsed, same]
      using balanced
  | unknownCommand read parsed =>
    simp [returnedBy, cancelledBy, unlinkReplyOf, ReadSide.cutShort, read, parsed]

/-- What enters and what leaves `pending` in one operation with a fresh number. -/
theorem balance (step : c.perform build op = some (o, c')) (fresh : ¬ c.maps.Live c.nextSeqnum) :
    c.maps.pending.keys.val + ↑((submittedBy ⟨c, op, o, c'⟩).toList.map Prod.fst) =
      c'.maps.pending.keys.val + ↑(returnedBy ⟨c, op, o, c'⟩).toList +
        ↑(cancelledBy ⟨c, op, o, c'⟩).toList + ↑(brokenBy ⟨c, op, o, c'⟩).toList := by
  rw [SharedState.live_iff, not_or, not_not, not_not] at fresh
  cases UsbipConnection.perform_cases step with
  | @sent cmd =>
    cases cmd with
    | submit args =>
      simp [submittedBy, returnedBy, cancelledBy, unlinkReplyOf, brokenBy, SharedState.register,
        Table.keys_insert_new _ _ _ fresh.1, ← Multiset.singleton_add, add_comm]
    | unlink target =>
      simp [submittedBy, returnedBy, cancelledBy, unlinkReplyOf, brokenBy, SharedState.register]
  | @failed cmd =>
    cases cmd <;> simp [submittedBy, returnedBy, cancelledBy, unlinkReplyOf, brokenBy]
  | received _ move =>
    simpa [submittedBy, brokenBy] using balance_recv move c _ rfl

/-- Every request takes the number at the counter. -/
theorem sent_key (step : c.perform build op = some (.sent (.ok k), c')) : k = c.nextSeqnum := by
  cases UsbipConnection.perform_cases step
  rfl

/-- An entry of `pending` was there before or is that of this submission. -/
theorem pending_after (step : c.perform build op = some (o, c'))
    (found : c'.maps.pending.lookup k = some d) :
    c.maps.pending.lookup k = some d ∨ submittedBy ⟨c, op, o, c'⟩ = some (k, d) := by
  have erased (j : UInt32) (h : (c.maps.pending.erase j).lookup k = some d) :
      c.maps.pending.lookup k = some d := by
    rw [Table.lookup_erase] at h
    split at h
    · cases h
    · exact h
  cases UsbipConnection.perform_cases step with
  | @sent cmd =>
    cases cmd with
    | submit args =>
      simp only [SharedState.register, Table.lookup_insert] at found
      split at found
      · next same => exact .inr (by simp_all [submittedBy])
      · exact .inl found
    | unlink t => exact .inl found
  | failed => exact .inl found
  | received _ move =>
    left
    cases move with
    | headerFailed | unknownSeqnum | unknownCommand => exact found
    | payloadFailed | submit => exact erased _ found
    | unlink =>
      unfold SharedState.applyUnlink at found
      split at found
      · exact found
      · dsimp only at found
        split at found
        · exact erased _ found
        · exact found

theorem applyUnlink_unlinks (maps : SharedState) (header : RetUnlinkHeader) :
    (maps.applyUnlink header).unlinks = maps.unlinks.erase header.seqnum := by
  unfold SharedState.applyUnlink
  cases hd : maps.unlinks.lookup header.seqnum with
  | none => rw [Table.erase_of_lookup_none _ _ hd]
  | some target =>
    dsimp only
    split <;> rfl

/-- An entry of `unlinks` appears with its `send_unlink` and goes with its RET_UNLINK. -/
theorem unlinks_after (step : c.perform build op = some (o, c'))
    (fresh : ¬ c.maps.Live c.nextSeqnum) :
    c'.maps.unlinks.lookup k = some target ↔ unlinkSentBy ⟨c, op, o, c'⟩ = some (k, target) ∨
      (c.maps.unlinks.lookup k = some target ∧
        ∀ ret, unlinkReplyOf ⟨c, op, o, c'⟩ = some ret → ret.seqnum ≠ k) := by
  rw [SharedState.live_iff, not_or, not_not, not_not] at fresh
  cases UsbipConnection.perform_cases step with
  | @sent cmd =>
    cases cmd with
    | submit args => simp [SharedState.register, unlinkSentBy, unlinkReplyOf]
    | unlink t =>
      simp only [SharedState.register, unlinkSentBy, unlinkReplyOf, Table.lookup_insert]
      obtain rfl | hk := eq_or_ne k c.nextSeqnum
      · simp [fresh.2]
      · simp [hk, Ne.symm hk]
  | @failed cmd => cases cmd <;> simp [unlinkSentBy, unlinkReplyOf]
  | received _ move =>
    simp only [unlinkSentBy, unlinkReplyOf]
    cases move with
    | headerFailed | unknownSeqnum | unknownCommand | payloadFailed | submit => simp
    | @unlink buf input header =>
      simp only [applyUnlink_unlinks, Table.lookup_erase]
      obtain rfl | hk := eq_or_ne k header.seqnum
      · simp
      · simp [hk, Ne.symm hk]

end OneOperation

/-! ## Whole runs -/

theorem outstanding_append (log : OperationLog) (e : Performed) (k target : UInt32) :
    Outstanding (log ++ [e]) k target ↔ unlinkSentBy e = some (k, target) ∨
      (Outstanding log k target ∧ ∀ ret, unlinkReplyOf e = some ret → ret.seqnum ≠ k) := by
  constructor
  · rintro ⟨earlier, x, later, split, sent, quiet⟩
    rcases List.eq_nil_or_concat' later with rfl | ⟨later, y, rfl⟩
    · obtain ⟨-, last⟩ := List.append_inj' split rfl
      obtain rfl := List.singleton_inj.mp last
      exact .inl sent
    · rw [← List.cons_append, ← List.append_assoc] at split
      obtain ⟨rfl, last⟩ := List.append_inj' split rfl
      obtain rfl := List.singleton_inj.mp last
      exact .inr ⟨⟨earlier, x, later, rfl, sent, fun r hr => quiet r (by simp [hr])⟩,
        quiet e (by simp)⟩
  · rintro (sent | ⟨⟨earlier, x, later, rfl, sent, quiet⟩, last⟩)
    · exact ⟨log, e, [], rfl, sent, by simp⟩
    · refine ⟨earlier, x, later ++ [e], by simp, sent, fun r hr => ?_⟩
      rcases List.mem_append.mp hr with hr | hr
      · exact quiet r hr
      · obtain rfl := List.mem_singleton.mp hr
        exact last

/-- What the maps and the log say about each other. -/
structure Accounted (log : OperationLog) (c : UsbipConnection) : Prop where
  once : ((submitted log).map Prod.fst).Nodup
  partition : (↑((submitted log).map Prod.fst) : Multiset UInt32) =
    c.maps.pending.keys.val + ↑(returned log) + ↑(cancelled log) + ↑(broken log)
  direction : ∀ k d, c.maps.pending.lookup k = some d → (k, d) ∈ submitted log
  outstanding : ∀ k target, c.maps.unlinks.lookup k = some target ↔ Outstanding log k target
  reported : ∀ earlier e later target, log = earlier ++ e :: later →
    cancelledBy e = some target → ∃ ret, unlinkReplyOf e = some ret ∧ ret.status = -econnreset ∧
      Outstanding earlier ret.seqnum target
  disjoint : ∀ k ∈ c.maps.pending, k ∉ c.maps.unlinks
  range : ∀ k, c.maps.Live k → 1 ≤ k ∧ k < c.nextSeqnum

theorem range_of_allotted {c : UsbipConnection} {n : ℕ} (h : c.Allotted n)
    (bound : n < 2 ^ 32 - 1) (k : UInt32) (live : c.maps.Live k) : 1 ≤ k ∧ k < c.nextSeqnum := by
  obtain ⟨i, hi, rfl⟩ := h.live k live
  rw [h.counter, UInt32.le_iff_toNat_le, UInt32.lt_iff_toNat_lt]
  simp only [keyAt, UInt32.toNat_ofNat', UInt32.toNat_one]
  omega

theorem regroup {M : Type*} [AddCommMonoid M] {p s p' r c b returned cancelled broken : M}
    (balanced : p + s = p' + r + c + b) :
    p + returned + cancelled + broken + s =
      p' + (returned + r) + (cancelled + c) + (broken + b) := by
  calc p + returned + cancelled + broken + s
      = p + s + (returned + cancelled + broken) := by abel
    _ = p' + r + c + b + (returned + cancelled + broken) := by rw [balanced]
    _ = p' + (returned + r) + (cancelled + c) + (broken + b) := by abel

/-- One more operation. -/
theorem Accounted.next {build : Build} {log : OperationLog} {c c' : UsbipConnection}
    {op : Operation} {o : Outcome} (h : Accounted log c)
    (step : c.perform build op = some (o, c')) (fresh : ¬ c.maps.Live c.nextSeqnum)
    (unused : ∀ d, (c.nextSeqnum, d) ∉ submitted log)
    (range : ∀ k, c'.maps.Live k → 1 ≤ k ∧ k < c'.nextSeqnum) :
    Accounted (log ++ [⟨c, op, o, c'⟩]) c' where
  once := by
    simp only [submitted, filterMap_snoc, List.map_append]
    refine List.nodup_append.mpr ⟨h.once, ?_, ?_⟩
    · cases submittedBy ⟨c, op, o, c'⟩ <;> simp
    · rintro k old _ new rfl
      obtain ⟨⟨_, d'⟩, sent, rfl⟩ := List.mem_map.mp new
      obtain ⟨args, _, rfl, _⟩ := submittedBy_eq_some_iff.mp (Option.mem_toList.mp sent)
      obtain ⟨⟨_, d⟩, mem, rfl⟩ := List.mem_map.mp old
      exact unused d (sent_key step ▸ mem)
  partition := by
    have balanced := balance step fresh
    have kept := h.partition
    simp only [submitted, returned, cancelled, broken, filterMap_snoc, List.map_append,
      ← Multiset.coe_add] at kept ⊢
    rw [kept]
    exact regroup balanced
  direction k d hk := by
    simp only [submitted, filterMap_snoc, List.mem_append]
    rcases pending_after step hk with hk | sent
    · exact .inl (h.direction k d hk)
    · exact .inr (Option.mem_toList.mpr sent)
  outstanding k target := by
    rw [unlinks_after step fresh, outstanding_append, h.outstanding]
  reported earlier e later target split cancels := by
    rcases List.eq_nil_or_concat' later with rfl | ⟨later, y, rfl⟩
    · obtain ⟨rfl, last⟩ := List.append_inj' split rfl
      obtain rfl := List.singleton_inj.mp last
      obtain ⟨ret, reply, reset, found, _⟩ := cancelledBy_eq_some_iff.mp cancels
      exact ⟨ret, reply, reset, (h.outstanding ..).mp found⟩
    · rw [← List.cons_append, ← List.append_assoc] at split
      obtain ⟨rfl, _⟩ := List.append_inj' split rfl
      exact h.reported earlier e later target rfl cancels
  disjoint k pending unlinks := by
    obtain ⟨d, hd⟩ := Finmap.mem_iff.mp pending
    obtain ⟨target, ht⟩ := Finmap.mem_iff.mp unlinks
    rcases pending_after step hd with hd | hd
    · rcases (unlinks_after step fresh).mp ht with ht | ⟨ht, _⟩
      · obtain ⟨_, rfl⟩ := unlinkSentBy_eq_some_iff.mp ht
        exact fresh (.inl (sent_key step ▸ Finmap.mem_of_lookup_eq_some hd))
      · exact h.disjoint k (Finmap.mem_of_lookup_eq_some hd) (Finmap.mem_of_lookup_eq_some ht)
    · obtain ⟨args, rfl, rfl, _⟩ := submittedBy_eq_some_iff.mp hd
      rcases (unlinks_after step fresh).mp ht with ht | ⟨ht, _⟩
      · simp [unlinkSentBy] at ht
      · exact fresh (.inr (sent_key step ▸ Finmap.mem_of_lookup_eq_some ht))
  range := range

theorem Accounted.initial (input : Input) (output : Output) (busnum devnum : UInt32) :
    Accounted [] (.imported input output busnum devnum) where
  once := by simp [submitted]
  partition := by simp [submitted, returned, cancelled, broken, UsbipConnection.imported]
  direction := by simp [UsbipConnection.imported]
  outstanding := by simp [UsbipConnection.imported, Outstanding]
  reported := by simp
  disjoint := by simp [UsbipConnection.imported, Finmap.notMem_empty]
  range k live := absurd live (SharedState.not_live_empty k)

/-- The numbers in the log are those handed out so far. -/
theorem issued_of_submitted {build : Build} {start c : UsbipConnection} {log : OperationLog}
    (initial : start.Allotted 0) (run : Operates build start log c) :
    ∀ p ∈ submitted log, ∃ i < allocations (log.map Entry.action), p.1 = keyAt i := by
  induction run with
  | start => simp [submitted]
  | @next log s t a o run step ih =>
    rintro ⟨k, d⟩ hp
    simp only [submitted, filterMap_snoc, List.mem_append, Option.mem_toList] at hp
    rw [List.map_append, allocations_append]
    rcases hp with hp | hp
    · obtain ⟨i, hi, same⟩ := ih _ hp
      exact ⟨i, by omega, same⟩
    · obtain ⟨args, rfl, rfl, _⟩ := submittedBy_eq_some_iff.mp hp
      refine ⟨allocations (log.map Entry.action), by simp, ?_⟩
      rw [sent_key step, (allotted_of_operates initial run).counter, Nat.zero_add]

/-- A failure that is not a broken payload. -/
inductive Rejected (e : Performed) : Prop
  | send {error} (failed : e.output = .sent (.error error))
  | header {error input} (recv : e.action = .recv)
      (read : e.before.input.readExact 48 = (.error error, input))
  | unknownSeqnum {buf input header} (recv : e.action = .recv)
      (read : e.before.input.readExact 48 = (.ok buf, input))
      (parsed : parseHeader buf = .retSubmit header)
      (absent : header.seqnum ∉ e.before.maps.pending)
  | unknownCommand {buf input command} (recv : e.action = .recv)
      (read : e.before.input.readExact 48 = (.ok buf, input))
      (parsed : parseHeader buf = .unknown command)

theorem maps_of_rejected {build : Build} {e : Performed}
    (step : e.before.perform build e.action = some (e.output, e.after)) (rejected : Rejected e) :
    e.after.maps = e.before.maps := by
  obtain ⟨c, op, o, c'⟩ := e
  simp only at step
  cases UsbipConnection.perform_cases step with
  | sent =>
    cases rejected with
    | send failed => simp at failed
    | header recv | unknownSeqnum recv | unknownCommand recv => cases recv
  | failed => rfl
  | received _ move =>
    simp only
    cases rejected with
    | send failed => cases failed
    | header _ read' => cases move <;> simp_all
    | unknownSeqnum _ read' parsed' absent' =>
      have missing := Finmap.lookup_eq_none.mpr absent'
      cases move with
      | headerFailed | unknownSeqnum | unknownCommand => rfl
      | payloadFailed read parsed present | submit read parsed present =>
        obtain ⟨rfl, rfl⟩ : _ ∧ _ := by simpa using read.symm.trans read'
        obtain rfl := ResponseHeader.retSubmit.inj (parsed.symm.trans parsed')
        simp [present] at missing
      | unlink read parsed =>
        obtain ⟨rfl, rfl⟩ : _ ∧ _ := by simpa using read.symm.trans read'
        cases parsed.symm.trans parsed'
    | unknownCommand _ read' parsed' => cases move <;> simp_all

/-- In every run with fewer than `2 ^ 32 - 1` allocations the submitted numbers
are exactly the pending, the returned, the cancelled and the broken ones, each
once, and the other failures leave the maps alone. -/
theorem requests_accounted (build : Build) (input : Input) (output : Output)
    (busnum devnum : UInt32) (log : OperationLog) (c : UsbipConnection)
    (run : Operates build (.imported input output busnum devnum) log c)
    (bound : allocations (log.map Entry.action) < 2 ^ 32 - 1) :
    Accounted log c ∧ ∀ e ∈ log, Rejected e → e.after.maps = e.before.maps := by
  refine ⟨?_, fun e he => maps_of_rejected (run.performed e he)⟩
  have start := UsbipConnection.Allotted.initial input output busnum devnum
  induction run with
  | start => exact .initial input output busnum devnum
  | @next log s t a o run step ih =>
    have allotted := allotted_of_operates start (run.next step)
    have before := allotted_of_operates start run
    rw [List.map_append, allocations_append] at bound
    refine (ih (by omega)).next step (before.fresh (by omega)) ?_
      (range_of_allotted allotted (by simpa using bound))
    intro d hd
    obtain ⟨i, hi, same⟩ := issued_of_submitted start run _ hd
    have := keyAt_inj (by omega) (by omega) (before.counter.symm.trans same)
    omega

/-- A server that answers the first of four requests, cancels the second, and is gone
in the middle of the answer to the third. -/
def goneWithThird : UsbipConnection :=
  .imported ⟨encodeAll [.submit (retSubmitHeader 1 3) [1, 0, 4],
    .unlink (retUnlinkHeader 5 (-econnreset)), .submit (retSubmitHeader 3 8) [1, 0]],
      ⟨.unexpectedEof, "failed to fill whole buffer"⟩⟩ ⟨[], []⟩ 1 2

/-- The second and the fourth request are to be cancelled. -/
def fourRequests : List Operation :=
  List.replicate 4 (.send (.submit interruptUrb)) ++
    [.send (.unlink 2), .recv, .recv, .send (.unlink 4), .recv, .recv]

/-- One request each has been returned, cancelled and cut short, and one is pending. -/
def oneOfEach (log : OperationLog) (c : UsbipConnection) : Bool :=
  decide (allocations (log.map Entry.action) = 6 ∧ returned log = [1] ∧ cancelled log = [2] ∧
    broken log = [3] ∧ c.maps.pending.lookup 4 = some .in ∧ c.maps.unlinks.lookup 6 = some 4)

theorem requests_accounted_each : ∃ log c, oneOfEach log c = true ∧
    Operates .checked goneWithThird log c ∧ Accounted log c ∧
      ∀ e ∈ log, Rejected e → e.after.maps = e.before.maps := by
  obtain ⟨log, c, run, found⟩ := Logged.of_record_any (UsbipConnection.perform .checked)
    goneWithThird fourRequests oneOfEach (by decide +kernel)
  have six : allocations (log.map Entry.action) = 6 := (of_decide_eq_true found).1
  exact ⟨log, c, found, run, requests_accounted .checked _ _ 1 2 log c run (by omega)⟩

end UsbipDevirt
