import Mathlib.Combinatorics.Enumerative.DoubleCounting
import UsbipDevirt.Callers
import UsbipDevirt.Locking

/-!
# URBs in flight

A number is given to one call and forgotten when its command cannot be written,
and an answer takes it out of both maps before the call returns. So while the
reader thread is in its loop, what the maps record are the URBs that some thread
is waiting for, and no server can make them grow.
-/

namespace UsbipDevirt

open Transition

namespace Bridge

/-- The command could not be written, and its entry has been removed again. -/
def GaveUp (b : Bridge) (c : CallId) : Prop :=
  (b.calls c).wrote = false ∧
    ((∃ e, (b.calls c).pc = .returned (.error e)) ∨
      ((b.calls c).pc = .sending ∧ ∃ e, b.split.writer = .returned (.error e)))

/-- A number belongs to a call, and SharedState has no entry for a call that gave up. -/
structure Registered (b : Bridge) : Prop where
  given : ∀ n < b.split.issued.length, ∃ c, (b.calls c).seqnum = some (keyAt n)
  forgotten : ∀ c k, b.GaveUp c → (b.calls c).seqnum = some k →
    b.split.shared.pending.lookup k = none
  unlinks : b.split.shared.unlinks = ∅

namespace Registered

theorem initial (build : Build) (input : Input) (output : Output) (busnum devnum : UInt32) :
    (imported build input output busnum devnum).Registered where
  given n short := by cases short
  forgotten c k _ _ := by
    apply Finmap.lookup_eq_none.mpr
    exact Finmap.notMem_empty
  unlinks := rfl

variable {b b' : Bridge}

/-- No number is given out, nobody gives up, and SharedState gets no new entry. -/
theorem keep (h : b.Registered) (issued : b'.split.issued = b.split.issued)
    (seqnum : ∀ c, (b'.calls c).seqnum = (b.calls c).seqnum)
    (gaveUp : ∀ c, b'.GaveUp c → b.GaveUp c)
    (removed : ∀ k d, b'.split.shared.pending.lookup k = some d →
      b.split.shared.pending.lookup k = some d)
    (unlinks : b'.split.shared.unlinks = b.split.shared.unlinks) : b'.Registered where
  given n short := by
    rw [issued] at short
    obtain ⟨c, hc⟩ := h.given n short
    exact ⟨c, (seqnum c).trans hc⟩
  forgotten c k gave hk := by
    have before := h.forgotten c k (gaveUp c gave) ((seqnum c).symm.trans hk)
    exact Split.lookup_none_of_removed removed before
  unlinks := unlinks.trans h.unlinks

/-- The same for a step of call `c`, when it leaves SharedState alone. -/
theorem move (h : b.Registered) (c : CallId) (others : ∀ d, d ≠ c → b'.calls d = b.calls d)
    (seqnum : (b'.calls c).seqnum = (b.calls c).seqnum) (mine : b'.GaveUp c → b.GaveUp c)
    (writer : ∀ e, b'.split.writer = .returned (.error e) → b.split.writer = .returned (.error e))
    (issued : b'.split.issued = b.split.issued) (shared : b'.split.shared = b.split.shared) :
    b'.Registered := by
  refine h.keep issued (fun d => ?_) (fun d gave => ?_) (by rw [shared]; exact fun _ _ => id)
    (by rw [shared])
  · by_cases same : d = c
    · rw [same, seqnum]
    · rw [others d same]
  · by_cases same : d = c
    · exact same ▸ mine (same ▸ gave)
    · obtain ⟨wrote, gave⟩ := gave
      rw [others d same] at wrote gave
      exact ⟨wrote, gave.imp_right fun ⟨pc, e, failed⟩ => ⟨pc, e, writer e failed⟩⟩

/-- The reader thread and the server do not touch the calls' numbers, and take entries
out of SharedState at most. -/
theorem outside (h : b.Registered) {a : Action} (step : b.step a = some b')
    (call : ∀ c fates, a ≠ .call c fates) (start : ∀ c request, a ≠ .start c request)
    (writer : b'.split.writer = b.split.writer) (issued : b'.split.issued = b.split.issued)
    (removed : ∀ k d, b'.split.shared.pending.lookup k = some d →
      b.split.shared.pending.lookup k = some d)
    (unlinks : b'.split.shared.unlinks = b.split.shared.unlinks) : b'.Registered := by
  have same (c : CallId) : (b'.calls c).seqnum = (b.calls c).seqnum ∧
      (b'.calls c).wrote = (b.calls c).wrote ∧ (b'.calls c).pc = (b.calls c).pc := by
    cases step_callChange step c with
    | same calls | sent _ _ _ calls => simp [calls]
    | started => exact absurd rfl (start _ _)
    | moved => exact absurd rfl (call _ _)
  apply h.keep issued (fun c => (same c).1) _ removed unlinks
  intro c gave
  obtain ⟨-, wrote, pc⟩ := same c
  rwa [GaveUp, wrote, pc, writer] at gave

theorem readerMove (h : b.Registered) {split : Split} (move : b.split.ReaderMove split) :
    split.issued = b.split.issued ∧
      (∀ k d, split.shared.pending.lookup k = some d →
        b.split.shared.pending.lookup k = some d) ∧
      split.shared.unlinks = b.split.shared.unlinks := by
  cases move with
  | submitHeader | unlinkHeader | unknownCommand | ended | lockSubmit | lockUnlink | payload =>
    exact ⟨rfl, fun _ _ => id, rfl⟩
  | unknownSeqnum | removeSubmit => exact ⟨rfl, fun _ _ => Table.lookup_of_erase, rfl⟩
  | @removeUnlink header pc =>
    have nothing : b.split.shared.applyUnlink header = b.split.shared := by
      simp [SharedState.applyUnlink, h.unlinks]
    rw [nothing]
    exact ⟨rfl, fun _ _ => id, rfl⟩

/-- The writer half serves the call that is in `send_submit`. -/
theorem serving (inv : b.Inv) (short : b.split.issued.length ≤ 2 ^ 32) {c : CallId}
    (pc : (b.calls c).pc = .sending) {k : UInt32} {cmd : Command}
    (at_ : b.split.writer.serving = some (k, cmd)) :
    (b.calls c).seqnum = some k ∧ cmd = .submit (b.calls c).request.args := by
  obtain ⟨n, length, mine⟩ := inv.sending c pc
  obtain ⟨m, length', issued, rfl⟩ := inv.split.serving k cmd at_
  obtain rfl : n = m := by omega
  exact ⟨mine, IssuedAs.unique short ⟨n, issued, rfl⟩ (inv.numbered c _ mine)⟩

theorem writerMove (h : b.Registered) (inv : b.Inv) (short : b.split.issued.length ≤ 2 ^ 32)
    {c : CallId} (pc : (b.calls c).pc = .sending) {fates : List Fate} {split : Split}
    (move : b.split.WriterMove fates split) : ({ b with split } : Bridge).Registered := by
  cases move with
  | lockInsert at_ | written at_ | failed at_ | lockRemove at_ =>
    refine h.move c (fun _ _ => rfl) rfl ?_ ?_ rfl rfl
    · rintro ⟨_, ⟨e, gave⟩ | ⟨_, e, failed⟩⟩
      · simp [pc] at gave
      · cases failed
    · rintro e ⟨⟩
  | @insert seqnum cmd at_ =>
    obtain ⟨mine, rfl⟩ := serving inv short pc (by rw [at_]; rfl)
    refine ⟨h.given, fun d k gave hk => ?_, h.unlinks⟩
    obtain ⟨wrote, ⟨e, returned⟩ | ⟨_, e, failed⟩⟩ := gave
    · have other : k ≠ seqnum := by
        rintro rfl
        obtain rfl := inv.own _ _ _ hk mine
        rw [pc] at returned
        cases returned
      have before := h.forgotten d k ⟨wrote, .inl ⟨e, returned⟩⟩ hk
      simpa [SharedState.register, other] using before
    · cases failed
  | @remove seqnum cmd e at_ =>
    obtain ⟨mine, rfl⟩ := serving inv short pc (by rw [at_]; rfl)
    refine ⟨h.given, fun d k gave hk => ?_, h.unlinks⟩
    simp only [SharedState.unregister, Table.lookup_erase]
    split
    · rfl
    · next other =>
      obtain ⟨wrote, ⟨e, returned⟩ | ⟨sending, _⟩⟩ := gave
      · exact h.forgotten d k ⟨wrote, .inl ⟨e, returned⟩⟩ hk
      · obtain rfl := inv.guarded_unique (c := c) (d := d) (by rw [pc]; rfl) (by
          have sending : (b.calls d).pc = .sending := sending
          rw [sending]
          rfl)
        exact absurd (Option.some.inj (hk.symm.trans mine)) other

theorem callMove (h : b.Registered) (inv : b.Inv) (short : b.split.issued.length ≤ 2 ^ 32)
    {c : CallId} {fates : List Fate} (move : CallMove b c fates b') : b'.Registered := by
  have others (call : Call) (d : CallId) (other : d ≠ c) :
      (b.setCall c call).calls d = b.calls d := setCall_calls_of_ne b call other
  cases move with
  | writing pc wrote => exact h.writerMove inv short pc (Split.writerStep_cases wrote)
  | poisoned | lockWriter | lockPending | insert | unlockWriter =>
    exact h.move c (others _) (by simp [setCall]) (by simp [GaveUp, setCall]) (fun _ => id) rfl rfl
  | received pc =>
    obtain ⟨_, _, wrote, _⟩ := (inv.progress c).of_waiting (.inr pc)
    exact h.move c (others _) (by simp) (by simp [GaveUp, wrote]) (fun _ => id) rfl rfl
  | disconnected pc =>
    obtain ⟨_, _, wrote, _⟩ := (inv.progress c).of_waiting (.inr pc)
    exact h.move c (others _) (by simp) (by simp [GaveUp, wrote]) (fun _ => id) rfl rfl
  | @panicked split pc call writer =>
    obtain ⟨_, ⟨_, rfl⟩ | ⟨_, _, _, rfl⟩⟩ := Split.call_cases call
    · exact h.move c (others _) (by simp [setCall]) (by simp [GaveUp, setCall]) (by rintro _ ⟨⟩)
        rfl rfl
    · exact absurd rfl (writer _ _)
  | written pc collect =>
    obtain ⟨at_, rfl⟩ := Split.collect_cases collect
    exact h.move c (others _) (by simp [setCall]) (by simp [GaveUp, setCall]) (by rintro _ ⟨⟩)
      rfl rfl
  | @failed split e pc collect =>
    obtain ⟨at_, rfl⟩ := Split.collect_cases collect
    refine h.move c (others _) (by simp [setCall]) ?_ (by rintro _ ⟨⟩) rfl rfl
    rintro ⟨wrote, _⟩
    exact ⟨by simpa [setCall] using wrote, .inr ⟨pc, e, at_⟩⟩
  | @allocated split seqnum cmd pc call writer =>
    obtain ⟨_, ⟨_, rfl⟩ | ⟨key, next, halloc, rfl⟩⟩ := Split.call_cases call
    · cases writer
    · obtain ⟨rfl, rfl⟩ := WriterPc.lockInsert.inj writer
      obtain ⟨rfl, _, _⟩ := allocSeqnum_cases halloc
      have none := ((inv.progress c).of_unnumbered (by rw [pc]; rfl)).1
      refine ⟨fun n within => ?_, fun d k gave hk => ?_, h.unlinks⟩
      · simp only [List.length_append, List.length_singleton] at within
        by_cases last : n = b.split.issued.length
        · exact ⟨c, by simp [setCall, last, inv.split.counter]⟩
        · obtain ⟨d, hd⟩ := h.given n (by omega)
          have other : d ≠ c := by
            rintro rfl
            cases none.symm.trans hd
          exact ⟨d, (congrArg Call.seqnum (others _ d other)).trans hd⟩
      · obtain ⟨wrote, gave⟩ := gave
        by_cases same : d = c
        · subst same
          simp [setCall] at gave
        · have calls : (b.setCall c { b.calls c with
              pc := .sending, seqnum := some b.split.nextSeqnum }).calls d = b.calls d :=
            others _ d same
          simp only [calls] at wrote gave hk
          rcases gave with returned | ⟨_, _, ⟨⟩⟩
          exact h.forgotten d k ⟨wrote, .inl returned⟩ hk

theorem step {a : Action} (h : b.Registered) (inv : b.Inv)
    (short : b.split.issued.length ≤ 2 ^ 32) (step : b.step a = some b') : b'.Registered := by
  cases step_cases step with
  | @start c request idle =>
    have none := ((inv.progress c).of_unnumbered (by rw [idle]; rfl)).1
    exact h.move c (fun d => setCall_calls_of_ne b _) (by simp [Call.idle, none])
      (by simp [GaveUp, Call.idle]) (fun _ => id) rfl rfl
  | call move => exact h.callMove inv short move
  | reader move =>
    cases move with
    | reading pc read =>
      obtain ⟨issued, removed, unlinks⟩ := h.readerMove (Split.readerStep_cases read)
      exact h.outside step (by simp) (by simp) (Split.readerStep_cases read).writer_eq.1 issued
        removed unlinks
    | submit pc take | unlink pc take | error pc take =>
      obtain ⟨_, rfl⟩ := Split.takeResponse_cases take
      exact h.outside step (by simp) (by simp) rfl rfl (fun _ _ => id) rfl
    | lockPending | found | unknown | deliver | lockDrain | drained =>
      exact h.outside step (by simp) (by simp) rfl rfl (fun _ _ => id) rfl
  | drain => exact h.outside step (by simp) (by simp) rfl rfl (fun _ _ => id) rfl
  | deliver arrive =>
    obtain rfl := Split.deliver_cases arrive
    exact h.outside step (by simp) (by simp) rfl rfl (fun _ _ => id) rfl
  | close arrive =>
    obtain rfl := Split.close_cases arrive
    exact h.outside step (by simp) (by simp) rfl rfl (fun _ _ => id) rfl

/-- While the reader thread is in its loop, an entry of SharedState is that of a call
under way. -/
theorem underWay (h : b.Registered) (inv : b.Inv) (running : b.reader.ended = false) {k : UInt32}
    {d : Direction} (entry : b.split.shared.pending.lookup k = some d) :
    ∃ c, (b.calls c).seqnum = some k ∧ (b.calls c).pc.underWay = true := by
  obtain ⟨args, ⟨n, issued, rfl⟩, _⟩ := inv.split.recorded k d entry
  obtain ⟨c, mine⟩ := h.given n (List.getElem?_eq_some_iff.mp issued).1
  refine ⟨c, mine, ?_⟩
  cases inv.progress c with
  | unnumbered _ none => cases none.symm.trans mine
  | sending pc => rw [pc]; rfl
  | registering pc => rcases pc with pc | pc <;> rw [pc] <;> rfl
  | waiting pc | answered pc => exact CallPc.underWay_of_waiting pc
  | @failed e pc _ wrote =>
    have absent := h.forgotten c _ ⟨wrote, .inl ⟨e, pc⟩⟩ mine
    cases absent.symm.trans entry
  | @returned k' result pc seqnum _ _ _ owed =>
    obtain rfl := Option.some.inj (mine.symm.trans seqnum)
    cases result with
    | error e => cases running.symm.trans owed
    | ok ret =>
      obtain ⟨same, handled⟩ := owed
      obtain ⟨header, decoded⟩ := inv.handled_decoded handled
      have answered : keyAt n ∈ b.split.answered :=
        List.mem_append_left _ (List.mem_map.mpr ⟨_, decoded, same⟩)
      cases (inv.split.gone _ answered).1.symm.trans entry

end Registered

theorem registered_of_run {guard : Bridge → Action → Prop} {build : Build} {input : Input}
    {output : Output} {busnum devnum : UInt32} {b : Bridge}
    (run : Reaches Bridge.step guard (imported build input output busnum devnum) b)
    (bound : b.split.issued.length < 2 ^ 32 - 1) : b.Inv ∧ b.Registered := by
  refine invariant_below (fun b => b.Inv ∧ b.Registered) ⟨.initial .., .initial ..⟩ ?_ run bound
  rintro b a b' ⟨inv, h⟩ _ step small
  have before := issued_length_le step
  exact ⟨inv.step step (by omega), h.step inv (by omega) step⟩

end Bridge

namespace System

/-- The data threads that have not ended. -/
def live (s : System) : Finset ThreadId := (Finset.range s.spawned).filter fun t =>
  (s.threads t).isSome

/-- The threads that may be in `submit`. -/
def callers (s : System) : Finset Caller := insert .main (s.live.image .data)

theorem card_callers (s : System) : s.callers.card ≤ 1 + s.live.card := by
  have added : s.callers.card ≤ (s.live.image Caller.data).card + 1 := Finset.card_insert_le ..
  have images : (s.live.image Caller.data).card ≤ s.live.card := Finset.card_image_le
  omega

theorem Callers.mem_callers {s : System} (h : s.Callers) {p : Caller} {c : CallId}
    (call : s.callOf p = some c) : p ∈ s.callers := by
  cases p with
  | main => exact Finset.mem_insert_self ..
  | data t =>
    obtain ⟨thread, live, _⟩ := Option.bind_eq_some_iff.mp call
    have spawned : t < s.spawned := by
      by_contra later
      cases (h.unspawned t (Nat.le_of_not_lt later)).symm.trans live
    refine Finset.mem_insert_of_mem (Finset.mem_image_of_mem _ ?_)
    simp only [System.live, Finset.mem_filter, Finset.mem_range]
    exact ⟨spawned, by rw [live]; rfl⟩

/-- A table whose keys belong to calls that threads are in, no two to one call, has no
more keys than there are threads. -/
theorem Callers.card_keys {V : Type} {s : System} (h : s.Callers) (table : Table UInt32 V)
    (callFor : UInt32 → CallId → Prop)
    (served : ∀ k ∈ table.keys, ∃ p c, s.callOf p = some c ∧ callFor k c)
    (once : ∀ j k c, j ∈ table.keys → k ∈ table.keys → callFor j c → callFor k c → j = k) :
    table.keys.card ≤ 1 + s.live.card := by
  refine le_trans ?_ s.card_callers
  apply Finset.card_le_card_of_forall_subsingleton
    (fun k p => ∃ c, s.callOf p = some c ∧ callFor k c)
  · intro k hk
    obtain ⟨p, c, call, mine⟩ := served k hk
    exact ⟨p, h.mem_callers call, c, call, mine⟩
  · rintro p _ j ⟨hj, c, hc, callJ⟩ k ⟨hk, d, hd, callK⟩
    obtain rfl := Option.some.inj (hc.symm.trans hd)
    exact once j k c hj hk callJ callK

/-- A sender in `bridge.pending` is that of a thread that stands in `submit`; while the
reader thread is in its loop so is every entry of SharedState; no CMD_UNLINK is
recorded; and neither map ever has more entries than there are threads. -/
theorem in_flight {build : Build} {input : Input} {output : Output} {busnum devnum : UInt32}
    {s : System} (run : Reaches System.step always (imported build input output busnum devnum) s) :
    (∀ k c, s.bridge.pending.lookup k = some c → ∃ p, s.callOf p = some c ∧ s.AtSubmit p) ∧
    s.bridge.pending.keys.card ≤ 1 + s.live.card ∧
    (s.bridge.split.issued.length < 2 ^ 32 - 1 →
      s.bridge.split.shared.unlinks = ∅ ∧
      (s.bridge.reader.ended = false →
        (∀ k d, s.bridge.split.shared.pending.lookup k = some d → ∃ p c,
          s.callOf p = some c ∧ s.AtSubmit p ∧ (s.bridge.calls c).seqnum = some k) ∧
        s.bridge.split.shared.pending.keys.card ≤ 1 + s.live.card)) := by
  have callers : s.Callers := callers_reachable run
  have fresh := Bridge.fresh_reachable (reaches_bridge run)
  have sender (k : UInt32) (c : CallId) (lookup : s.bridge.pending.lookup k = some c) :
      ∃ p, s.callOf p = some c := by
    have waiting := (fresh.held k c lookup).1
    exact callers.owned c (CallPc.underWay_of_waiting waiting)
  refine ⟨fun k c lookup => ?_, ?_, fun bound => ?_⟩
  · obtain ⟨p, call⟩ := sender k c lookup
    exact ⟨p, call, callers.submitting p c call⟩
  · apply callers.card_keys _ fun k c => s.bridge.pending.lookup k = some c
    · intro k hk
      obtain ⟨c, lookup⟩ := Finmap.mem_iff.mp (Finmap.mem_keys.mp hk)
      obtain ⟨p, call⟩ := sender k c lookup
      exact ⟨p, c, call, lookup⟩
    · exact fun j k c _ _ hj hk => fresh.once j k c hj hk
  · obtain ⟨inv, registered⟩ := Bridge.registered_of_run (reaches_bridge run) bound
    refine ⟨registered.unlinks, fun running => ⟨fun k d entry => ?_, ?_⟩⟩
    · obtain ⟨c, mine, underWay⟩ := registered.underWay inv running entry
      obtain ⟨p, call⟩ := callers.owned c underWay
      exact ⟨p, c, call, callers.submitting p c call, mine⟩
    · apply callers.card_keys _ fun k c => (s.bridge.calls c).seqnum = some k
      · intro k hk
        obtain ⟨d, entry⟩ := Finmap.mem_iff.mp (Finmap.mem_keys.mp hk)
        obtain ⟨c, mine, underWay⟩ := registered.underWay inv running entry
        obtain ⟨p, call⟩ := callers.owned c underWay
        exact ⟨p, c, call, mine⟩
      · exact fun j k c _ _ hj hk => Option.some.inj (hj.symm.trans hk)

/-- The data thread of the interrupt endpoint asks for a report, and the main thread
for the configuration descriptor once more. -/
def bothAsk : List Action :=
  readConfig 0 1 configDescriptor ++ configured 1 2 ++ [.thread 0 .submit] ++ runCall 2 ++
    [.main (.ioctl (fetchedControl (getConfigDescriptor 9))), .main .submit] ++ runCall 3

/-- Two threads, and two URBs in flight. -/
theorem in_flight_both : ∃ s : System, s.live.card = 1 ∧ s.bridge.pending.keys.card = 2 ∧
    s.bridge.split.shared.pending.keys.card = 2 ∧
    s.bridge.split.shared.pending.keys.card ≤ 1 + s.live.card := by
  obtain ⟨s, run, found⟩ := Reaches.of_exec_any System.step always_of_anyStep device bothAsk
    (fun s => decide (s.live.card = 1 ∧ s.bridge.pending.keys.card = 2 ∧
      s.bridge.split.shared.pending.keys.card = 2 ∧
      s.bridge.split.issued.length < 2 ^ 32 - 1 ∧ s.bridge.reader.ended = false))
    (by decide +kernel)
  rw [decide_eq_true_iff] at found
  obtain ⟨live, senders, entries, bound, running⟩ := found
  obtain ⟨-, -, shared⟩ := in_flight run
  exact ⟨s, live, senders, entries, ((shared bound).2 running).2⟩

end System

end UsbipDevirt
