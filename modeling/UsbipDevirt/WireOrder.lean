import Mathlib.Algebra.Group.Nat.Defs
import UsbipDevirt.BridgeSafety

/-!
# The order of the commands on the wire

The writer serves one command at a time, so the commands that were written
stand in the order of their sequence numbers, up to the point where the counter
comes round. Among them is that of every call whose write succeeded.
-/

namespace UsbipDevirt

theorem keyAt_toNat {n : ℕ} (h : n < 2 ^ 32 - 1) : (keyAt n).toNat = n + 1 := by
  simp only [keyAt, UInt32.toNat_ofNat']
  omega

theorem keyAt_lt {i j : ℕ} (h : i < j) (bound : j < 2 ^ 32 - 1) : keyAt i < keyAt j := by
  rw [UInt32.lt_iff_toNat_lt, keyAt_toNat (by omega), keyAt_toNat bound]
  omega

/-- The next number is larger than those that were handed out. -/
theorem IssuedAs.lt_next {issued : List Command} {k : UInt32} {cmd : Command}
    (bound : issued.length < 2 ^ 32 - 1) (h : IssuedAs issued k cmd) : k < keyAt issued.length := by
  obtain ⟨i, at_i, rfl⟩ := h
  exact keyAt_lt (List.getElem?_eq_some_iff.mp at_i).1 bound

namespace Split

/-- The commands on the wire are in order, and the one that the writer is busy
with comes after them. -/
structure Sequenced (s : Split) : Prop where
  issued : ∀ k cmd, (k, cmd) ∈ s.written → IssuedAs s.issued k cmd
  ordered : (s.written.map Prod.fst).Pairwise (· < ·)
  serving : ∀ k cmd, s.writer.serving = some (k, cmd) → ∀ p ∈ s.written, p.1 < k
  result : ∀ k, s.writer = .returned (.ok k) → ∃ cmd, (k, cmd) ∈ s.written

theorem Sequenced.writerStep {s t : Split} {fates : List Fate} (h : s.Sequenced) (inv : s.Inv)
    (step : s.writerStep fates = some t) : t.Sequenced := by
  have moves {writer : WriterPc} (shared : SharedState) (lock : Option Half) (sent : List UInt8)
      (serving : ∀ k cmd, writer.serving = some (k, cmd) → s.writer.serving = some (k, cmd))
      (result : ∀ k, writer ≠ .returned (.ok k)) :
      Sequenced { s with shared, lock, sent, writer } :=
    { h with
      serving := fun k cmd hk => h.serving k cmd (serving k cmd hk)
      result := fun k hk => absurd hk (result k) }
  cases writerStep_cases step with
  | lockInsert pc | insert pc | failed pc | lockRemove pc =>
    exact moves _ _ _ (fun k cmd hk => by rw [pc]; exact hk) (by rintro _ ⟨⟩)
  | remove pc => exact moves _ _ _ (by rintro _ _ ⟨⟩) (by rintro _ ⟨⟩)
  | @written seqnum cmd out pc ok =>
    have here : s.writer.serving = some (seqnum, cmd) := by rw [pc]; rfl
    refine ⟨fun k cmd' mem => ?_, ?_, by rintro _ _ ⟨⟩, ?_⟩
    · rcases List.mem_append.mp mem with mem | mem
      · exact h.issued k cmd' mem
      · obtain ⟨rfl, rfl⟩ := Prod.mk.inj (List.mem_singleton.mp mem)
        obtain ⟨n, _, at_n, key⟩ := inv.serving k cmd' here
        exact ⟨n, at_n, key⟩
    · rw [List.map_append, List.pairwise_append]
      refine ⟨h.ordered, by simp, fun k hk k' hk' => ?_⟩
      obtain ⟨p, mem, rfl⟩ := List.mem_map.mp hk
      obtain rfl : k' = seqnum := by simpa using hk'
      exact h.serving k' cmd here p mem
    · rintro k ⟨⟩
      exact ⟨cmd, by simp⟩

theorem Sequenced.step {s t : Split} {a : Action} (h : s.Sequenced) (inv : s.Inv)
    (step : s.step a = some t) (bound : t.issued.length < 2 ^ 32) : t.Sequenced := by
  cases step_cases step with
  | overflow | collect => exact { h with serving := by rintro _ _ ⟨⟩, result := by rintro _ ⟨⟩ }
  | call pc alloc =>
    obtain ⟨rfl, _⟩ := allocSeqnum_cases alloc
    simp only [List.length_append, List.length_singleton] at bound
    refine { h with
      issued := fun k cmd' mem => (h.issued k cmd' mem).mono
      serving := ?_
      result := by rintro _ ⟨⟩ }
    rintro k cmd' ⟨⟩ ⟨k', cmd''⟩ mem
    rw [inv.counter]
    exact (h.issued k' cmd'' mem).lt_next (by omega)
  | writer => exact h.writerStep inv step
  | reader move => cases move <;> exact { h with }
  | takeResponse | deliver | close => exact { h with }

theorem Sequenced.initial (build : Build) (c : UsbipConnection) :
    Sequenced (ofConnection build c) where
  issued := by simp [ofConnection]
  ordered := .nil
  serving := by simp [ofConnection, WriterPc.serving]
  result := by simp [ofConnection]

theorem step_written {s t : Split} {a : Action} (step : s.step a = some t) :
    ∃ more, t.written = s.written ++ more := by
  have same (h : t.written = s.written) : ∃ more, t.written = s.written ++ more :=
    ⟨[], by rw [h, List.append_nil]⟩
  cases step_cases step with
  | writer move =>
    cases move with
    | written => exact ⟨_, rfl⟩
    | _ => exact same rfl
  | reader move => cases move <;> exact same rfl
  | overflow | call | collect | takeResponse | deliver | close => exact same rfl

/-- A number on the wire belongs to one command. -/
theorem Sequenced.unique {s : Split} (h : s.Sequenced) {k : UInt32} {cmd cmd' : Command}
    (bound : s.issued.length ≤ 2 ^ 32) (mem : (k, cmd) ∈ s.written)
    (issued : IssuedAs s.issued k cmd') : cmd = cmd' :=
  (h.issued k cmd mem).unique bound issued

end Split

namespace Bridge

/-- What a step does to the number of a call and to the record of its write. -/
inductive NumberMove (b b' : Bridge) (c : CallId) : Prop where
  | same (request : (b'.calls c).request = (b.calls c).request)
      (seqnum : (b'.calls c).seqnum = (b.calls c).seqnum)
      (wrote : (b'.calls c).wrote = (b.calls c).wrote)
  | started (idle : (b.calls c).pc = .idle) (seqnum : (b'.calls c).seqnum = none)
  | allocated {k : UInt32} {cmd : Command} (pc : (b.calls c).pc = .sendSubmit)
      (call : b.split.call cmd = some b'.split) (writer : b'.split.writer = .lockInsert k cmd)
      (request : (b'.calls c).request = (b.calls c).request)
      (seqnum : (b'.calls c).seqnum = some k) (wrote : (b'.calls c).wrote = (b.calls c).wrote)
  | written {k : UInt32} (pc : (b.calls c).pc = .sending)
      (collect : b.split.collect = some (.ok k, b'.split))
      (request : (b'.calls c).request = (b.calls c).request)
      (seqnum : (b'.calls c).seqnum = (b.calls c).seqnum)

theorem step_numberMove {b b' : Bridge} {a : Action} (step : b.step a = some b') (c : CallId) :
    NumberMove b b' c := by
  cases step_callChange step c with
  | same calls | sent _ _ _ calls => exact .same (by rw [calls]) (by rw [calls]) (by rw [calls])
  | started idle calls => exact .started idle (by rw [calls]; rfl)
  | moved move =>
    cases move with
    | allocated pc call writer =>
      obtain ⟨_, ⟨_, rfl⟩ | ⟨_, _, _, rfl⟩⟩ := Split.call_cases call
      · cases writer
      · obtain ⟨rfl, rfl⟩ := WriterPc.lockInsert.inj writer
        exact .allocated pc call rfl (by simp [setCall]) (by simp [setCall]) (by simp [setCall])
    | written pc collect => exact .written pc collect (by simp [setCall]) (by simp [setCall])
    | writing => exact .same rfl rfl rfl
    | _ => exact .same (by simp [setCall]) (by simp [setCall]) (by simp [setCall])

/-- A call whose write has succeeded has its command on the wire. -/
structure Wired (b : Bridge) : Prop where
  split : b.split.Sequenced
  wrote : ∀ c k, (b.calls c).seqnum = some k → (b.calls c).wrote = true →
    (k, .submit (b.calls c).request.args) ∈ b.split.written

theorem Wired.step {b b' : Bridge} {a : Action} (h : b.Wired) (inv : b.Inv)
    (step : b.step a = some b') (bound : b'.split.issued.length < 2 ^ 32) : b'.Wired := by
  have grown : b'.split.Sequenced ∧ ∀ p ∈ b.split.written, p ∈ b'.split.written := by
    rcases step_split step with same | ⟨a', move, _⟩
    · rw [same]
      exact ⟨h.split, fun _ => id⟩
    · obtain ⟨more, written⟩ := Split.step_written move
      exact ⟨h.split.step inv.split move bound, fun p mem => written ▸ List.mem_append_left _ mem⟩
  refine ⟨grown.1, fun c k seqnum wrote => ?_⟩
  cases step_numberMove step c with
  | same request seqnum' wrote' =>
    rw [request]
    exact grown.2 _ (h.wrote c k (seqnum' ▸ seqnum) (wrote' ▸ wrote))
  | started idle none => cases none.symm.trans seqnum
  | allocated pc call writer request seqnum' wrote' =>
    obtain ⟨_, _, nothing⟩ := (inv.progress c).of_unnumbered (by simp [pc, CallPc.unnumbered])
    rw [wrote', nothing] at wrote
    cases wrote
  | @written k' pc collect request seqnum' =>
    obtain ⟨returned, _⟩ := Split.collect_cases collect
    obtain ⟨n, hn, rfl⟩ := inv.split.result k' returned
    obtain ⟨n', hn', number⟩ := inv.sending c pc
    obtain rfl : n = n' := by omega
    rw [seqnum'] at seqnum
    obtain rfl := Option.some.inj (number.symm.trans seqnum)
    obtain ⟨cmd, mem⟩ := h.split.result _ returned
    have few := issued_length_le step
    obtain rfl := h.split.unique (by omega) mem (inv.numbered c _ number)
    rw [request]
    exact grown.2 _ mem

theorem Wired.initial (build : Build) (input : Input) (output : Output) (busnum devnum : UInt32) :
    Wired (imported build input output busnum devnum) where
  split := .initial ..
  wrote := by simp [imported, new, Call.idle]

/-! ## The numbers of successive calls -/

/-- The numbers that were given to these calls. -/
def numbers (b : Bridge) (cs : List CallId) : List UInt32 :=
  cs.filterMap fun c => (b.calls c).seqnum

theorem numbers_append (b : Bridge) (cs ds : List CallId) :
    b.numbers (cs ++ ds) = b.numbers cs ++ b.numbers ds := List.filterMap_append

/-- Where only the last call may not have returned yet, the numbers grow. -/
theorem numbers_step {b b' : Bridge} {a : Action} (inv : b.Inv) (step : b.step a = some b')
    (bound : b'.split.issued.length < 2 ^ 32) {done : List CallId} {last : Option CallId}
    (returned : ∀ c ∈ done, ∃ result, (b.calls c).pc = .returned result)
    (ordered : (b.numbers (done ++ last.toList)).Pairwise (· < ·)) :
    (b'.numbers (done ++ last.toList)).Pairwise (· < ·) := by
  have same : b'.numbers done = b.numbers done := by
    refine List.filterMap_congr fun c mem => ?_
    obtain ⟨result, here⟩ := returned c mem
    cases step_numberMove step c with
    | same _ seqnum | written _ _ _ seqnum => exact seqnum
    | started pc | allocated pc => cases here.symm.trans pc
  cases last with
  | none => simpa only [Option.toList_none, List.append_nil, same] using ordered
  | some c =>
    have snoc (b : Bridge) :
        b.numbers (done ++ [c]) = b.numbers done ++ (b.calls c).seqnum.toList :=
      Transition.filterMap_snoc ..
    rw [Option.toList_some, snoc] at ordered ⊢
    obtain ⟨before, _, _⟩ := List.pairwise_append.mp ordered
    cases step_numberMove step c with
    | same _ seqnum | written _ _ _ seqnum => rwa [same, seqnum]
    | started _ none => simpa [same, none] using before
    | @allocated k cmd pc call writer _ seqnum =>
      rw [same, seqnum, List.pairwise_append]
      refine ⟨before, by simp, fun k' mem k'' new => ?_⟩
      obtain rfl : k'' = k := by simpa using new
      obtain ⟨d, _, number⟩ := List.mem_filterMap.mp mem
      obtain ⟨_, ⟨_, split⟩ | ⟨k, next, alloc, split⟩⟩ := Split.call_cases call
      · rw [split] at writer
        cases writer
      · rw [split] at writer bound
        obtain rfl := (WriterPc.lockInsert.inj writer).1
        obtain ⟨rfl, _⟩ := allocSeqnum_cases alloc
        simp only [List.length_append, List.length_singleton] at bound
        rw [inv.split.counter]
        exact (inv.numbered d k' number).lt_next (by omega)

end Bridge

end UsbipDevirt
