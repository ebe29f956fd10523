import UsbipDevirt.Lib.Tickets
import UsbipDevirt.ResponseStream
import UsbipDevirt.Split

/-!
# Sequence numbers over the life of a connection

A session is a connection from import on: first unsplit, then, if it is split,
the two halves. Its moments are the states in which `alloc_seqnum` is called.
The counter is 32 bits wide, so whether a sequence number may be reused depends
on how long requests stay outstanding. That question is settled exactly, for
both ways in which the counter may behave at its limit.
-/

namespace UsbipDevirt

/-- `panicked` is an unsplit connection lost to the overflow of its counter. -/
inductive Session where
  | whole (c : UsbipConnection)
  | halves (s : Split)
  | panicked

/-- What `alloc_seqnum` finds when it is called. -/
structure Moment where
  nextSeqnum : UInt32
  maps : SharedState

/-- The number handed out is not the key of an outstanding request. -/
def Moment.Fresh (build : Build) (m : Moment) : Prop :=
  ∃ seqnum next, allocSeqnum build m.nextSeqnum = some (seqnum, next) ∧ ¬ m.maps.Live seqnum

/-! ## Small facts about the maps and the counter -/

theorem allocSeqnum_cases {build : Build} {next seqnum after : UInt32}
    (h : allocSeqnum build next = some (seqnum, after)) :
    seqnum = next ∧ after = next + 1 ∧ (build = .checked → next ≠ 0xffffffff) := by
  unfold allocSeqnum at h
  split at h
  · cases h
  · next hlimit =>
    obtain ⟨rfl, rfl⟩ := Prod.mk.inj (Option.some.inj h)
    exact ⟨rfl, rfl, fun hb hn => hlimit ⟨hb, hn⟩⟩

theorem allocSeqnum_none_iff (build : Build) (next : UInt32) :
    allocSeqnum build next = none ↔ build = .checked ∧ next = 0xffffffff := by
  unfold allocSeqnum
  split <;> simp_all

namespace SharedState

theorem live_iff (maps : SharedState) (k : UInt32) :
    maps.Live k ↔ maps.pending.lookup k ≠ none ∨ maps.unlinks.lookup k ≠ none := by
  unfold Live
  rw [Table.mem_iff_lookup_ne_none, Table.mem_iff_lookup_ne_none]

theorem not_live_empty (k : UInt32) : ¬ (⟨∅, ∅⟩ : SharedState).Live k := by
  simp [live_iff]

theorem live_register {maps : SharedState} {seqnum k : UInt32} {cmd : Command}
    (h : (maps.register seqnum cmd).Live k) : maps.Live k ∨ k = seqnum := by
  cases cmd <;>
  · simp only [live_iff, register, Table.lookup_insert] at h ⊢
    by_cases hk : k = seqnum
    · exact .inr hk
    · exact .inl (by simpa [hk] using h)

/-- Removing entries makes nothing live. -/
theorem live_of_erase_pending {maps : SharedState} {j k : UInt32}
    (h : SharedState.Live { maps with pending := maps.pending.erase j } k) : maps.Live k := by
  simp only [live_iff, Table.lookup_erase] at h ⊢
  rcases h with h | h
  · exact .inl (by split at h <;> simp_all)
  · exact .inr h

theorem live_of_erase_unlinks {maps : SharedState} {j k : UInt32}
    (h : SharedState.Live { maps with unlinks := maps.unlinks.erase j } k) : maps.Live k := by
  simp only [live_iff, Table.lookup_erase] at h ⊢
  rcases h with h | h
  · exact .inl h
  · exact .inr (by split at h <;> simp_all)

theorem live_unregister {maps : SharedState} {seqnum k : UInt32} {cmd : Command}
    (h : (maps.unregister seqnum cmd).Live k) : maps.Live k := by
  cases cmd with
  | submit args => exact live_of_erase_pending h
  | unlink target => exact live_of_erase_unlinks h

theorem live_applyUnlink {maps : SharedState} {header : RetUnlinkHeader} {k : UInt32}
    (h : (maps.applyUnlink header).Live k) : maps.Live k := by
  unfold applyUnlink at h
  split at h
  · exact h
  · next target _ =>
    dsimp only at h
    split at h
    · have later : SharedState.Live ⟨maps.pending, maps.unlinks.erase header.seqnum⟩ k :=
        live_of_erase_pending h
      exact live_of_erase_unlinks later
    · exact live_of_erase_unlinks h

/-- What is found after a removal was there before it. -/
theorem lookup_of_unregister {maps : SharedState} {seqnum k : UInt32} {cmd : Command}
    {d : Direction} (h : (maps.unregister seqnum cmd).pending.lookup k = some d) :
    maps.pending.lookup k = some d := by
  cases cmd with
  | submit args => exact Table.lookup_of_erase h
  | unlink target => exact h

theorem lookup_of_applyUnlink {maps : SharedState} {header : RetUnlinkHeader} {k : UInt32}
    {d : Direction} (h : (maps.applyUnlink header).pending.lookup k = some d) :
    maps.pending.lookup k = some d := by
  simp only [applyUnlink] at h
  split at h
  · exact h
  · split at h
    · exact Table.lookup_of_erase h
    · exact h

end SharedState

theorem live_of_recv {r : ReadSide} {k : UInt32}
    (h : (recvUrbResponse r).2.maps.Live k) : r.maps.Live k := by
  unfold recvUrbResponse at h
  split at h
  · exact h
  · split at h
    · split at h
      · exact h
      · next header _ _ _ _ =>
        have erased : SharedState.Live
            { r.maps with pending := r.maps.pending.erase header.seqnum } k := by
          dsimp only at h
          split at h
          · split at h <;> exact h
          · exact h
        exact SharedState.live_of_erase_pending erased
    · exact SharedState.live_applyUnlink h
    · exact h

/-! ## Runs of a session -/

/-- The two sending functions of an unsplit connection. -/
def UsbipConnection.send (build : Build) (c : UsbipConnection) :
    Command → Option (Except IoError UInt32 × UsbipConnection)
  | .submit args => c.sendSubmit build args
  | .unlink target => c.sendUnlink build target

namespace Session

inductive Action where
  | send (cmd : Command)
  | recv
  | intoSplit
  | half (a : Split.Action)

def step (build : Build) : Session → Action → Option Session
  | .whole c, .send cmd =>
    match c.send build cmd with
    | none => some .panicked
    | some (_, c) => some (.whole c)
  | .whole c, .recv => some (.whole c.recv.2)
  | .whole c, .intoSplit => some (.halves (Split.ofConnection build c))
  | .halves s, .half a => (s.step a).map .halves
  | _, _ => none

/-- The call of `alloc_seqnum` that an action starts with. -/
def moment : Session → Action → Option Moment
  | .whole c, .send _ => some ⟨c.nextSeqnum, c.maps⟩
  | .halves s, .half (.call _) => some ⟨s.nextSeqnum, s.shared⟩
  | _, _ => none

/-- The insert into `pending` or `unlinks` that an action makes, with the maps in front of it. -/
def inserted (build : Build) : Session → Action → Option Moment
  | .whole c, .send cmd =>
    match c.send build cmd with
    | some (.ok _, _) => some ⟨c.nextSeqnum, c.maps⟩
    | _ => none
  | .halves s, .half (.writer _) =>
    match s.writer with
    | .insert seqnum _ => some ⟨seqnum, s.shared⟩
    | _ => none
  | _, _ => none

/-- Runs of any length, with their moments and their inserts in order. -/
inductive Runs (build : Build) (start : Session) : List Moment → List Moment → Session → Prop
  | start : Runs build start [] [] start
  | next {ms ins : List Moment} {s t : Session} {a : Action} : Runs build start ms ins s →
      step build s a = some t →
      Runs build start (ms ++ (s.moment a).toList) (ins ++ (s.inserted build a).toList) t

/-- Perform the actions in order, with their moments and their inserts. -/
def record (build : Build) (ms ins : List Moment) :
    Session → List Action → Option (List Moment × List Moment × Session)
  | s, [] => some (ms, ins, s)
  | s, a :: as => (s.step build a).bind fun t =>
      t.record build (ms ++ (s.moment a).toList) (ins ++ (s.inserted build a).toList) as

namespace Runs

variable {build : Build} {start s t : Session} {ms ms' ins ins' : List Moment}

theorem of_record {as : List Action} (earlier : Runs build start ms ins s)
    (h : record build ms ins s as = some (ms', ins', t)) : Runs build start ms' ins' t := by
  induction as generalizing ms ins s with
  | nil =>
    obtain ⟨rfl, rfl, rfl⟩ : ms = ms' ∧ ins = ins' ∧ s = t := by simpa [record] using h
    exact earlier
  | cons a as ih =>
    obtain ⟨u, hop, later⟩ := Option.bind_eq_some_iff.mp h
    exact ih (.next earlier hop) later

/-- A run given by its actions, with what a test finds in it. -/
theorem of_record_any (build : Build) (start : Session) (as : List Action)
    (test : List Moment → List Moment → Session → Bool)
    (found : (record build [] [] start as).any (fun run => test run.1 run.2.1 run.2.2) = true) :
    ∃ ms ins s, Runs build start ms ins s ∧ test ms ins s = true := by
  obtain ⟨⟨ms, ins, s⟩, recorded, tested⟩ := (Option.any_eq_true _ _).mp found
  exact ⟨ms, ins, s, of_record .start recorded, tested⟩

end Runs

end Session

/-! ## What one step does to the counter and to the outstanding keys -/

/-- The writer has `k` and has yet to insert it. -/
def WriterPc.Inserting (pc : WriterPc) (k : UInt32) : Prop :=
  ∃ cmd, pc = .lockInsert k cmd ∨ pc = .insert k cmd

def Split.Holds (s : Split) (k : UInt32) : Prop := s.shared.Live k ∨ s.writer.Inserting k

def Session.Holds : Session → UInt32 → Prop
  | .whole c, k => c.maps.Live k
  | .halves s, k => s.Holds k
  | .panicked, _ => False

/-- The counter, as long as it can still be asked. -/
def Session.counter : Session → Option UInt32
  | .whole c => some c.nextSeqnum
  | .halves s => match s.writer with
    | .panicked => none
    | _ => some s.nextSeqnum
  | .panicked => none

def Session.BuiltAs (build : Build) : Session → Prop
  | .halves s => s.build = build
  | _ => True

/-- A step that allocates nothing keeps the counter and holds no new key. -/
structure Session.Quiet (build : Build) (s t : Session) : Prop where
  counter : t.counter = s.counter
  holds : ∀ k, t.Holds k → s.Holds k
  built : s.BuiltAs build → t.BuiltAs build

/-- A step that allocates takes the number at the counter and holds no other new key. -/
structure Session.Allocates (build : Build) (m : Moment) (s t : Session) : Prop where
  counter : s.counter = some m.nextSeqnum
  maps : ∀ k, m.maps.Live k → s.Holds k
  after : t.counter = (allocSeqnum build m.nextSeqnum).map Prod.snd
  holds : ∀ k, t.Holds k → m.maps.Live k ∨ k = m.nextSeqnum
  built : t.BuiltAs build

theorem UsbipConnection.send_allocates {build : Build} {c : UsbipConnection} {cmd : Command}
    {t : Session} (h : Session.step build (.whole c) (.send cmd) = some t) :
    Session.Allocates build ⟨c.nextSeqnum, c.maps⟩ (.whole c) t := by
  have key : ∀ r, c.send build cmd = r →
      (r = none ∧ allocSeqnum build c.nextSeqnum = none) ∨
      ∃ res c', r = some (res, c') ∧
        allocSeqnum build c.nextSeqnum = some (c.nextSeqnum, c'.nextSeqnum) ∧
        ∀ k, c'.maps.Live k → c.maps.Live k ∨ k = c.nextSeqnum := by
    rintro r rfl
    cases halloc : allocSeqnum build c.nextSeqnum with
    | none => left; cases cmd <;> simp [send, sendSubmit, sendUnlink, halloc]
    | some pair =>
      obtain ⟨seqnum, next⟩ := pair
      obtain ⟨rfl, _, _⟩ := allocSeqnum_cases halloc
      right
      cases cmd with
      | submit args =>
        simp only [send, sendSubmit, halloc]
        split
        · exact ⟨_, _, rfl, rfl, fun k hk => .inl hk⟩
        · exact ⟨_, _, rfl, rfl, fun k (hk : (c.maps.register _ (.submit args)).Live k) =>
            SharedState.live_register hk⟩
      | unlink target =>
        simp only [send, sendUnlink, halloc]
        split
        · exact ⟨_, _, rfl, rfl, fun k hk => .inl hk⟩
        · exact ⟨_, _, rfl, rfl, fun k (hk : (c.maps.register _ (.unlink target)).Live k) =>
            SharedState.live_register hk⟩
  rcases key _ rfl with ⟨hnone, halloc⟩ | ⟨res, c', hsome, halloc, hlive⟩
  · obtain rfl : .panicked = t := by simpa [Session.step, hnone] using h
    exact ⟨rfl, fun _ hk => hk, by simp [Session.counter, halloc], fun _ hk => hk.elim, trivial⟩
  · obtain rfl : .whole c' = t := by simpa [Session.step, hsome] using h
    exact ⟨rfl, fun _ hk => hk, by simp [Session.counter, halloc], hlive, trivial⟩

theorem Split.call_allocates {s t : Split} {cmd : Command} (h : s.call cmd = some t) :
    Session.Allocates s.build ⟨s.nextSeqnum, s.shared⟩ (.halves s) (.halves t) := by
  obtain ⟨hidle, ⟨halloc, rfl⟩ | ⟨seqnum, next, halloc, rfl⟩⟩ := call_cases h
  · refine ⟨by simp [Session.counter, hidle], fun _ hk => .inl hk,
      by simp [Session.counter, halloc], ?_, rfl⟩
    rintro k (hk | ⟨_, hk | hk⟩)
    · exact .inl hk
    · cases hk
    · cases hk
  · obtain ⟨rfl, rfl, _⟩ := allocSeqnum_cases halloc
    refine ⟨by simp [Session.counter, hidle], fun _ hk => .inl hk,
      by simp [Session.counter, halloc], ?_, rfl⟩
    rintro k (hk | ⟨_, hk | hk⟩)
    · exact .inl hk
    · exact .inr (WriterPc.lockInsert.inj hk).1.symm
    · cases hk

section Quiet

variable {build : Build} {s t : Split}

/-- Whatever leaves the writer and the counter alone and removes entries at most is quiet. -/
theorem Split.quiet_of_same_writer (hw : t.writer = s.writer) (hn : t.nextSeqnum = s.nextSeqnum)
    (hb : t.build = s.build) (hl : ∀ k, t.shared.Live k → s.shared.Live k) :
    Session.Quiet build (.halves s) (.halves t) := by
  refine ⟨by simp [Session.counter, hw, hn], ?_, fun h => hb.trans h⟩
  rintro k (hk | hk)
  · exact .inl (hl k hk)
  · exact .inr (hw ▸ hk)

/-- The writer's own steps keep the counter; past the insert they add nothing. -/
theorem Split.quiet_of_inserted (hs : s.writer ≠ .panicked) (ht : t.writer ≠ .panicked)
    (hn : t.nextSeqnum = s.nextSeqnum) (hb : t.build = s.build)
    (hl : ∀ k, t.shared.Live k → s.Holds k) (hi : ∀ k, ¬ t.writer.Inserting k) :
    Session.Quiet build (.halves s) (.halves t) := by
  refine ⟨by simp [Session.counter, hn], ?_, fun h => hb.trans h⟩
  rintro k (hk | hk)
  · exact hl k hk
  · exact absurd hk (hi k)

theorem Split.writerStep_quiet {fates : List Fate} (h : s.writerStep fates = some t) :
    Session.Quiet build (.halves s) (.halves t) := by
  cases writerStep_cases h with
  | lockInsert pc free =>
    refine ⟨by simp [Session.counter, pc], ?_, id⟩
    rintro k (hk | ⟨_, hk | hk⟩)
    · exact .inl hk
    · cases hk
    · obtain ⟨rfl, rfl⟩ := WriterPc.insert.inj hk
      exact .inr ⟨_, .inl pc⟩
  | insert pc =>
    refine quiet_of_inserted (by simp [pc]) (by simp) rfl rfl (fun k hk => ?_)
      (by simp [WriterPc.Inserting])
    rcases SharedState.live_register hk with hk | rfl
    · exact .inl hk
    · exact .inr ⟨_, .inr pc⟩
  | written pc ok | failed pc error | lockRemove pc free =>
    exact quiet_of_inserted (by simp [pc]) (by simp) rfl rfl (fun k hk => .inl hk)
      (by simp [WriterPc.Inserting])
  | remove pc =>
    exact quiet_of_inserted (by simp [pc]) (by simp) rfl rfl
      (fun k hk => .inl (SharedState.live_unregister hk)) (by simp [WriterPc.Inserting])

theorem Split.readerStep_quiet (h : s.readerStep = some t) :
    Session.Quiet build (.halves s) (.halves t) := by
  cases readerStep_cases h with
  | unknownSeqnum | removeSubmit =>
    exact quiet_of_same_writer rfl rfl rfl fun k hk => SharedState.live_of_erase_pending hk
  | removeUnlink =>
    exact quiet_of_same_writer rfl rfl rfl fun k hk => SharedState.live_applyUnlink hk
  | _ => exact quiet_of_same_writer rfl rfl rfl fun k hk => hk

theorem Split.collect_quiet {result : Except IoError UInt32} (h : s.collect = some (result, t)) :
    Session.Quiet build (.halves s) (.halves t) := by
  obtain ⟨pc, rfl⟩ := collect_cases h
  exact quiet_of_inserted (by simp [pc]) (by simp) rfl rfl (fun k hk => .inl hk)
    (by simp [WriterPc.Inserting])

end Quiet

/-- Every step of a session either allocates, and is recorded as a moment, or is quiet. -/
theorem Session.step_cases {build : Build} {s t : Session} {a : Action}
    (built : s.BuiltAs build) (h : step build s a = some t) :
    (∃ m, s.moment a = some m ∧ Allocates build m s t) ∨
      (s.moment a = none ∧ Quiet build s t) := by
  cases s with
  | whole c =>
    cases a with
    | send cmd => exact .inl ⟨_, rfl, UsbipConnection.send_allocates h⟩
    | recv =>
      obtain rfl := Option.some.inj h
      exact .inr ⟨rfl, rfl, fun k hk => live_of_recv (r := ⟨c.input, c.maps⟩) hk, id⟩
    | intoSplit =>
      obtain rfl := Option.some.inj h
      refine .inr ⟨rfl, rfl, ?_, fun _ => rfl⟩
      rintro k (hk | ⟨_, hk | hk⟩)
      · exact hk
      · cases hk
      · cases hk
    | half => cases h
  | halves s =>
    cases a with
    | half a =>
      obtain ⟨t, ht, rfl⟩ := Option.map_eq_some_iff.mp h
      obtain rfl : s.build = build := built
      cases Split.step_cases ht with
      | overflow | call => exact .inl ⟨_, rfl, Split.call_allocates ht⟩
      | writer => exact .inr ⟨rfl, Split.writerStep_quiet ht⟩
      | collect =>
        obtain ⟨⟨result, t⟩, hc, same⟩ := Option.map_eq_some_iff.mp ht
        exact .inr ⟨rfl, same ▸ Split.collect_quiet hc⟩
      | reader => exact .inr ⟨rfl, Split.readerStep_quiet ht⟩
      | takeResponse | deliver | close =>
        exact .inr ⟨rfl, Split.quiet_of_same_writer rfl rfl rfl fun k hk => hk⟩
    | send | recv | intoSplit => cases h
  | panicked => cases h

/-! ## The history of a run -/

/-- The outstanding keys at each moment. -/
def liveAt (ms : List Moment) (n : ℕ) (k : UInt32) : Prop := ∃ m, ms[n]? = some m ∧ m.maps.Live k

def keyAt (n : ℕ) : UInt32 := UInt32.ofNat (1 + n)

/-- What a run's moments say about the state it has reached. -/
structure History (build : Build) (ms : List Moment) (s : Session) : Prop where
  built : s.BuiltAs build
  keys : ∀ n m, ms[n]? = some m → m.nextSeqnum = keyAt n
  ledger : Tickets.Ledger keyAt (liveAt ms) ms.length
  held : ∀ k, s.Holds k → ∃ n, ms.length = n + 1 ∧ (liveAt ms n k ∨ k = keyAt n)
  running : ∀ next, s.counter = some next →
    next = keyAt ms.length ∧ (build = .checked → ms.length + 1 < 2 ^ 32)
  stopped : s.counter = none → build = .checked ∧ ms.length + 1 = 2 ^ 32

theorem keyAt_succ (n : ℕ) : keyAt n + 1 = keyAt (n + 1) := by
  apply UInt32.toNat_inj.mp
  simp only [keyAt, UInt32.toNat_add, UInt32.toNat_ofNat', UInt32.toNat_one]
  omega

theorem keyAt_eq_max_iff {n : ℕ} (h : n + 1 < 2 ^ 32) : keyAt n = 0xffffffff ↔ n + 2 = 2 ^ 32 := by
  rw [← UInt32.toNat_inj, keyAt, UInt32.toNat_ofNat']
  simp only [UInt32.reduceToNat]
  omega

theorem History.initial (build : Build) (input : Input) (output : Output) (busnum devnum : UInt32) :
    History build [] (.whole (.imported input output busnum devnum)) where
  built := trivial
  keys := by simp
  ledger := ⟨fun _ h => by simp at h, fun _ _ h => by simp at h⟩
  held k h := absurd h (SharedState.not_live_empty k)
  running next h := ⟨(Option.some.inj h).symm, fun _ => by simp⟩
  stopped h := by cases h

theorem History.quiet {build : Build} {ms : List Moment} {s t : Session} (h : History build ms s)
    (q : Session.Quiet build s t) : History build ms t where
  built := q.built h.built
  keys := h.keys
  ledger := h.ledger
  held k hk := h.held k (q.holds k hk)
  running next hn := h.running next (q.counter ▸ hn)
  stopped hn := h.stopped (q.counter ▸ hn)

theorem liveAt_append_of_lt {ms : List Moment} {m : Moment} {n : ℕ} (h : n < ms.length)
    (k : UInt32) : liveAt (ms ++ [m]) n k ↔ liveAt ms n k := by
  simp [liveAt, List.getElem?_append_left h]

theorem liveAt_append_last (ms : List Moment) (m : Moment) (k : UInt32) :
    liveAt (ms ++ [m]) ms.length k ↔ m.maps.Live k := by
  simp [liveAt]

theorem History.allocate {build : Build} {ms : List Moment} {m : Moment} {s t : Session}
    (h : History build ms s) (a : Session.Allocates build m s t) :
    History build (ms ++ [m]) t := by
  obtain ⟨hkey, hlimit⟩ := h.running _ a.counter
  refine ⟨a.built, ?_, ⟨?_, ?_⟩, ?_, ?_, ?_⟩
  · intro n m' hm
    by_cases hn : n < ms.length
    · rw [List.getElem?_append_left hn] at hm
      exact h.keys n m' hm
    · obtain ⟨hlast, rfl⟩ : n = ms.length ∧ m = m' := by
        have := List.getElem?_eq_some_iff.mp hm
        obtain ⟨hlt, hget⟩ := this
        have hlast : n = ms.length := by simp at hlt; omega
        subst hlast
        exact ⟨rfl, by simpa using hget⟩
      exact hlast ▸ hkey
  · intro k _
    by_cases hn : 0 < ms.length
    · rw [liveAt_append_of_lt hn]
      exact h.ledger.empty k hn
    · obtain rfl : ms = [] := List.eq_nil_of_length_eq_zero (by omega)
      intro hlive
      obtain ⟨n, hlen, _⟩ := h.held k (a.maps k ((liveAt_append_last [] m k).mp hlive))
      simp at hlen
  · intro n k hn hlive
    simp only [List.length_append, List.length_singleton] at hn
    rw [liveAt_append_of_lt (by omega)]
    by_cases hlast : n + 1 = ms.length
    · rw [hlast, liveAt_append_last] at hlive
      obtain ⟨n', hlen, held⟩ := h.held k (a.maps k hlive)
      obtain rfl : n' = n := by omega
      exact held
    · rw [liveAt_append_of_lt (by omega)] at hlive
      exact h.ledger.grows n k (by omega) hlive
  · intro k hk
    refine ⟨ms.length, by simp, ?_⟩
    rw [liveAt_append_last, ← hkey]
    exact a.holds k hk
  · intro next hnext
    rw [a.after] at hnext
    obtain ⟨⟨seqnum, _⟩, halloc, rfl⟩ := Option.map_eq_some_iff.mp hnext
    obtain ⟨_, hafter, hsafe⟩ := allocSeqnum_cases halloc
    rw [List.length_append, List.length_singleton, ← keyAt_succ, ← hkey]
    refine ⟨hafter, fun hb => ?_⟩
    have := hsafe hb
    rw [hkey, ne_eq, keyAt_eq_max_iff (hlimit hb)] at this
    have := hlimit hb
    omega
  · intro hnone
    rw [a.after, Option.map_eq_none_iff, allocSeqnum_none_iff] at hnone
    obtain ⟨hb, hmax⟩ := hnone
    rw [hkey, keyAt_eq_max_iff (hlimit hb)] at hmax
    exact ⟨hb, by simp; omega⟩

theorem Session.Runs.history {build : Build} {start s : Session} {ms ins : List Moment}
    (initial : History build [] start) (run : Session.Runs build start ms ins s) :
    History build ms s := by
  induction run with
  | start => exact initial
  | next _ hstep ih =>
    rcases Session.step_cases ih.built hstep with ⟨m, hm, halloc⟩ | ⟨hm, hquiet⟩
    · simpa [hm] using ih.allocate halloc
    · simpa [hm] using ih.quiet hquiet

/-! ## Inserts -/

namespace Session

def Waiting : Session → UInt32 → Prop
  | .halves s, k => s.writer.Inserting k
  | _, _ => False

def maps : Session → SharedState
  | .whole c => c.maps
  | .halves s => s.shared
  | .panicked => ⟨∅, ∅⟩

/-- Between its allocation and its insert a number does not become live. -/
theorem waiting_step {build : Build} {s t : Session} {a : Action} {k : UInt32}
    (h : step build s a = some t) (wait : t.Waiting k) (live : t.maps.Live k) :
    (s.Waiting k ∧ s.maps.Live k) ∨
      ∃ m, s.moment a = some m ∧ m.maps.Live k ∧ k = m.nextSeqnum := by
  cases s with
  | whole c =>
    cases a with
    | send cmd =>
      simp only [step] at h
      split at h <;> (obtain rfl := Option.some.inj h; cases wait)
    | recv =>
      obtain rfl := Option.some.inj h
      cases wait
    | intoSplit =>
      obtain rfl := Option.some.inj h
      obtain ⟨_, hk | hk⟩ := wait <;> cases hk
    | half => cases h
  | halves s =>
    cases a with
    | half a =>
      obtain ⟨t, ht, rfl⟩ := Option.map_eq_some_iff.mp h
      have same : ∀ u : Split, u = t → u.writer = s.writer →
          (∀ k, u.shared.Live k → s.shared.Live k) →
          (Session.halves s).Waiting k ∧ (Session.halves s).maps.Live k := by
        rintro u rfl hw hl
        exact ⟨show s.writer.Inserting k from hw ▸ wait, hl k live⟩
      cases Split.step_cases ht with
      | overflow | collect => obtain ⟨_, hk | hk⟩ := wait <;> cases hk
      | call pc halloc =>
        obtain ⟨rfl, _⟩ := allocSeqnum_cases halloc
        obtain ⟨_, hk | hk⟩ := wait
        · exact .inr ⟨_, rfl, live, (WriterPc.lockInsert.inj hk).1.symm⟩
        · cases hk
      | writer move =>
        cases move with
        | lockInsert pc free =>
          obtain ⟨_, hk | hk⟩ := wait
          · cases hk
          · obtain ⟨rfl, rfl⟩ := WriterPc.insert.inj hk
            exact .inl ⟨⟨_, .inl pc⟩, live⟩
        | insert | written | failed | lockRemove | remove =>
          obtain ⟨_, hk | hk⟩ := wait <;> cases hk
      | reader move =>
        left
        cases move with
        | unknownSeqnum | removeSubmit =>
          exact same _ rfl rfl fun k hk => SharedState.live_of_erase_pending hk
        | removeUnlink => exact same _ rfl rfl fun k hk => SharedState.live_applyUnlink hk
        | _ => exact same _ rfl rfl fun k hk => hk
      | takeResponse | deliver | close => exact .inl (same _ rfl rfl fun k hk => hk)
    | send | recv | intoSplit => cases h
  | panicked => cases h

/-- What is inserted was allocated by the same call, at once or some steps ago. -/
theorem inserted_step {build : Build} {s : Session} {a : Action} {m : Moment}
    (h : s.inserted build a = some m) :
    (s.Waiting m.nextSeqnum ∧ m.maps = s.maps) ∨ s.moment a = some m := by
  unfold inserted at h
  split at h
  · split at h
    · exact .inr h
    · cases h
  · split at h
    · next hpc =>
      obtain rfl := Option.some.inj h
      exact .inl ⟨⟨_, .inr hpc⟩, rfl⟩
    · cases h
  · cases h

end Session

theorem Moment.Fresh.not_live {build : Build} {m : Moment} (h : m.Fresh build) :
    ¬ m.maps.Live m.nextSeqnum := by
  obtain ⟨seqnum, next, halloc, hdead⟩ := h
  obtain ⟨rfl, _⟩ := allocSeqnum_cases halloc
  exact hdead

/-- If only free numbers were handed out, no insert has overwritten anything
and the one the writer may be about to make will not. -/
theorem Session.Runs.inserts_fresh {build : Build} {start s : Session} {ms ins : List Moment}
    (idle : ∀ k, ¬ start.Waiting k) (run : Session.Runs build start ms ins s)
    (fresh : ∀ m ∈ ms, m.Fresh build) :
    (∀ m ∈ ins, ¬ m.maps.Live m.nextSeqnum) ∧ ∀ k, s.Waiting k → ¬ s.maps.Live k := by
  induction run with
  | start => exact ⟨by simp, fun k hk => absurd hk (idle k)⟩
  | @next ms ins s t a _ hstep ih =>
    obtain ⟨done, waiting⟩ := ih fun m hm => fresh m (List.mem_append_left _ hm)
    have now : ∀ m, s.moment a = some m → ¬ m.maps.Live m.nextSeqnum := fun m hm =>
      (fresh m (List.mem_append_right _ (by simp [hm]))).not_live
    constructor
    · intro m hm
      rcases List.mem_append.mp hm with hm | hm
      · exact done m hm
      · rcases Session.inserted_step (Option.mem_toList.mp hm) with ⟨hwait, hmaps⟩ | hmoment
        · exact hmaps ▸ waiting _ hwait
        · exact now m hmoment
    · intro k hwait hlive
      rcases Session.waiting_step hstep hwait hlive with ⟨hwait, hlive⟩ | ⟨m, hm, hlive, rfl⟩
      · exact waiting k hwait hlive
      · exact now m hm hlive

/-! ## The counter's limit -/

/-- Every number handed out is free, and no insert overwrites an entry. -/
structure NeverReused (build : Build) (ms ins : List Moment) : Prop where
  fresh : ∀ m ∈ ms, m.Fresh build
  inserts : ∀ m ∈ ins, ¬ m.maps.Live m.nextSeqnum

/-- The calls stop short of the limit where the counter is checked, and no
request stays outstanding while the counter goes all the way round. -/
structure InTime (build : Build) (ms : List Moment) : Prop where
  limit : build = .checked → ms.length + 1 < 2 ^ 32
  released : ∀ k n, n + 2 ^ 32 ≤ ms.length →
    ∃ i m, n ≤ i ∧ i < n + 2 ^ 32 ∧ ms[i]? = some m ∧ ¬ m.maps.Live k

theorem cyclic_keyAt : Tickets.Cyclic keyAt (2 ^ 32) := Tickets.cyclic_uint32 1

theorem not_liveAt_iff {ms : List Moment} {n : ℕ} (h : n < ms.length) (k : UInt32) :
    ¬ liveAt ms n k ↔ ∃ m, ms[n]? = some m ∧ ¬ m.maps.Live k := by
  simp [liveAt, List.getElem?_eq_getElem h]

/-- Where the counter is checked, staying free of panics is staying below the limit. -/
theorem History.limit_iff {build : Build} {ms : List Moment} {s : Session}
    (h : History build ms s) :
    (∀ m ∈ ms, allocSeqnum build m.nextSeqnum ≠ none) ↔
      (build = .checked → ms.length + 1 < 2 ^ 32) := by
  constructor
  · intro noPanic hb
    cases hc : s.counter with
    | some next => exact (h.running next hc).2 hb
    | none =>
      obtain ⟨_, hlen⟩ := h.stopped hc
      have hlast : 2 ^ 32 - 2 < ms.length := by omega
      have hkey := h.keys _ _ (List.getElem?_eq_getElem hlast)
      have := noPanic _ (List.getElem_mem hlast)
      rw [ne_eq, allocSeqnum_none_iff, hkey] at this
      exact absurd ⟨hb, by decide⟩ this
  · intro limit m hm
    obtain ⟨n, hn, rfl⟩ := List.mem_iff_getElem.mp hm
    rw [ne_eq, allocSeqnum_none_iff, h.keys n _ (List.getElem?_eq_getElem hn)]
    rintro ⟨hb, hmax⟩
    have := limit hb
    rw [keyAt_eq_max_iff (by omega)] at hmax
    omega

theorem fresh_iff (build : Build) (m : Moment) :
    m.Fresh build ↔ allocSeqnum build m.nextSeqnum ≠ none ∧ ¬ m.maps.Live m.nextSeqnum := by
  constructor
  · intro h
    refine ⟨?_, h.not_live⟩
    obtain ⟨_, _, halloc, _⟩ := h
    simp [halloc]
  · rintro ⟨halloc, hdead⟩
    obtain ⟨⟨seqnum, next⟩, hsome⟩ := Option.ne_none_iff_exists'.mp halloc
    obtain ⟨rfl, _⟩ := allocSeqnum_cases hsome
    exact ⟨_, _, hsome, hdead⟩

theorem seqnum_never_reused_iff {build : Build} {input : Input} {output : Output}
    {busnum devnum : UInt32} {ms ins : List Moment} {s : Session}
    (run : Session.Runs build (.whole (.imported input output busnum devnum)) ms ins s) :
    NeverReused build ms ins ↔ InTime build ms := by
  have history := run.history (History.initial build input output busnum devnum)
  have keys : (∀ m ∈ ms, ¬ m.maps.Live m.nextSeqnum) ↔
      ∀ n < ms.length, ¬ liveAt ms n (keyAt n) := by
    rw [List.forall_mem_iff_getElem]
    refine forall_congr' fun n => forall_congr' fun hn => ?_
    have hget := List.getElem?_eq_getElem hn
    simp [liveAt, hget, ← history.keys n _ hget]
  have released : (∀ n < ms.length, ¬ liveAt ms n (keyAt n)) ↔ ∀ k n, n + 2 ^ 32 ≤ ms.length →
      ∃ i m, n ≤ i ∧ i < n + 2 ^ 32 ∧ ms[i]? = some m ∧ ¬ m.maps.Live k := by
    rw [history.ledger.fresh_iff cyclic_keyAt]
    refine forall_congr' fun k => forall_congr' fun n => forall_congr' fun hn => ?_
    refine exists_congr fun i => ?_
    constructor
    · rintro ⟨hni, hin, hdead⟩
      obtain ⟨m, hm, hdead⟩ := (not_liveAt_iff (by omega) k).mp hdead
      exact ⟨m, hni, hin, hm, hdead⟩
    · rintro ⟨m, hni, hin, hm, hdead⟩
      exact ⟨hni, hin, (not_liveAt_iff (by omega) k).mpr ⟨m, hm, hdead⟩⟩
  constructor
  · intro never
    have fresh := fun m hm => (fresh_iff build m).mp (never.fresh m hm)
    exact ⟨history.limit_iff.mp fun m hm => (fresh m hm).1,
      released.mp (keys.mp fun m hm => (fresh m hm).2)⟩
  · intro inTime
    have fresh : ∀ m ∈ ms, m.Fresh build := fun m hm =>
      (fresh_iff build m).mpr
        ⟨history.limit_iff.mpr inTime.limit m hm, keys.mpr (released.mpr inTime.released) m hm⟩
    have idle : ∀ k, ¬ (Session.whole (.imported input output busnum devnum)).Waiting k :=
      fun _ => not_false
    exact ⟨fresh, (run.inserts_fresh idle fresh).1⟩

/-- An imported device whose server stays silent and whose socket takes every write. -/
def silentServer : UsbipConnection :=
  .imported ⟨[], ⟨.unexpectedEof, "failed to fill whole buffer"⟩⟩ ⟨[], []⟩ 1 2

def interruptUrb : SubmitArgs where
  ep := 1
  direction := .in
  transferFlags := 0
  transferBufferLength := 8
  setup := List.Vector.replicate 8 0
  data := []
  interval := 0

/-- The same device, whose server answers the second request and falls silent. -/
def secondAnswered : UsbipConnection :=
  .imported ⟨Message.encode (.submit (retSubmitHeader 2 3) [1, 0, 4]),
    ⟨.unexpectedEof, "failed to fill whole buffer"⟩⟩ ⟨[], []⟩ 1 2

/-- Two requests, the answer to the second, an attempt to cancel the first, and a third
request on the halves. -/
def fourNumbers : List Session.Action :=
  [.send (.submit interruptUrb), .send (.submit interruptUrb), .recv, .send (.unlink 1),
    .intoSplit, .half (.call (.submit interruptUrb)), .half (.writer []), .half (.writer [])]

/-- Number 2 is done, the three others are outstanding. -/
def threeOutstanding (ms ins : List Moment) : Session → Bool
  | .halves s => decide (ms.length = 4 ∧ ins.length = 4 ∧
      s.shared.pending.lookup 1 = some .in ∧ s.shared.pending.lookup 2 = none ∧
      s.shared.unlinks.lookup 3 = some 1 ∧ s.shared.pending.lookup 4 = some .in)
  | _ => false

theorem seqnum_never_reused_iff_four : ∃ ms ins s, threeOutstanding ms ins s = true ∧
    Session.Runs .checked (.whole secondAnswered) ms ins s ∧ NeverReused .checked ms ins := by
  obtain ⟨ms, ins, s, run, found⟩ := Session.Runs.of_record_any .checked
    (.whole secondAnswered) fourNumbers threeOutstanding (by decide +kernel)
  have four : ms.length = 4 := by
    cases s with
    | halves s =>
      simp only [threeOutstanding, decide_eq_true_eq] at found
      exact found.1
    | _ => cases found
  refine ⟨ms, ins, s, found, run, (seqnum_never_reused_iff run).mpr ⟨fun _ => ?_, ?_⟩⟩
  · rw [four]
    decide
  · intro k n reused
    omega

/-- Unanswered submissions pile up, one key each. -/
theorem submit_unanswered (build : Build) (n : ℕ) (room : build = .checked → n + 1 < 2 ^ 32) :
    ∃ ms ins c, Session.Runs build (.whole silentServer) ms ins (.whole c) ∧
      c.output.fates = [] ∧ c.nextSeqnum = keyAt n ∧ ∀ i < n, c.maps.Live (keyAt i) := by
  induction n with
  | zero => exact ⟨[], [], silentServer, .start, rfl, rfl, by simp⟩
  | succ n ih =>
    obtain ⟨ms, ins, c, run, hfates, hnext, hlive⟩ := ih fun hb => by have := room hb; omega
    have halloc : allocSeqnum build c.nextSeqnum = some (c.nextSeqnum, c.nextSeqnum + 1) := by
      refine if_neg ?_
      rintro ⟨hb, hmax⟩
      have := room hb
      rw [hnext, keyAt_eq_max_iff (by omega)] at hmax
      omega
    have hout : c.output = ⟨c.output.sent, []⟩ := by rw [← hfates]
    have hwrite := Command.write_of_no_fates c.output.sent c.nextSeqnum c.devid
      (.submit interruptUrb)
    rw [← hout, Command.write] at hwrite
    have hstep : Session.step build (.whole c) (.send (.submit interruptUrb)) =
        some (.whole { c with
          output := ⟨c.output.sent ++ (Command.submit interruptUrb).encode c.nextSeqnum c.devid, []⟩
          nextSeqnum := c.nextSeqnum + 1
          maps := { c.maps with pending := c.maps.pending.insert c.nextSeqnum .in } }) := by
      simp only [Session.step, UsbipConnection.send, UsbipConnection.sendSubmit, halloc, hwrite]
      rfl
    refine ⟨_, _, _, run.next hstep, rfl, ?_, ?_⟩
    · rw [← keyAt_succ, ← hnext]
    · intro i hi
      rw [SharedState.live_iff, Table.lookup_insert]
      by_cases hin : keyAt i = c.nextSeqnum
      · simp [hin]
      · have hlt : i < n := by
          rcases Nat.lt_succ_iff_lt_or_eq.mp hi with hlt | rfl
          · exact hlt
          · exact absurd hnext.symm hin
        simpa [hin] using (SharedState.live_iff _ _).mp (hlive i hlt)

/-- A checked counter panics at its last value, and a release build hands out
sequence number 1 a second time while the first request is outstanding. -/
theorem seqnum_fails_at_limit :
    (∃ ms ins s, Session.Runs .checked (.whole silentServer) ms ins s ∧
      ¬ NeverReused .checked ms ins) ∧
    ∃ ms ins s, Session.Runs .release (.whole silentServer) ms ins s ∧
      ¬ NeverReused .release ms ins := by
  constructor
  · obtain ⟨ms, ins, c, run, _, hnext, _⟩ := submit_unanswered .checked (2 ^ 32 - 2) fun _ => by
      decide
    have hmax : c.nextSeqnum = 0xffffffff := hnext
    refine ⟨_, _, .panicked, run.next (a := .send (.submit interruptUrb)) ?_, fun never => ?_⟩
    · simp [Session.step, UsbipConnection.send, UsbipConnection.sendSubmit, allocSeqnum, hmax]
    · have := never.fresh ⟨c.nextSeqnum, c.maps⟩ (by simp [Session.moment])
      simp [fresh_iff, allocSeqnum, hmax] at this
  · obtain ⟨ms, ins, c, run, _, hnext, hlive⟩ := submit_unanswered .release (2 ^ 32) nofun
    have hone : c.maps.Live c.nextSeqnum := hnext ▸ hlive 0 (by decide)
    have hstep : ∃ t, Session.step .release (.whole c) (.send (.submit interruptUrb)) = some t := by
      simp only [Session.step]
      split <;> exact ⟨_, rfl⟩
    obtain ⟨t, hstep⟩ := hstep
    refine ⟨_, _, t, run.next hstep, fun never => ?_⟩
    exact (never.fresh ⟨c.nextSeqnum, c.maps⟩ (by simp [Session.moment])).not_live hone

end UsbipDevirt
