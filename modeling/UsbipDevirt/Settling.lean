import Mathlib.Algebra.BigOperators.Group.Finset.Piecewise
import UsbipDevirt.Draining
import UsbipDevirt.Quiescence

/-!
# The program comes to rest

Between two answers from outside a thread does a bounded amount of work: each
round of a loop goes through an ioctl, a call of `submit` has a bounded number of
steps, and the reader thread uses up what has arrived. So whatever the order of
the steps, the program ends up where only the kernel or the server can move it.
-/

namespace UsbipDevirt

open Transition Program Program.Prog

/-! ## The bridge -/

/-- The steps a call may still make, those in `send_submit` apart. An insertion counts
for two: it also makes work for the drain. -/
def CallPc.stepsLeft : CallPc → ℕ
  | .idle | .returned _ | .panicked => 0
  | .recv => 1
  | .unlockWriter => 2
  | .insert _ => 4
  | .lockPending _ => 5
  | .sending => 6
  | .sendSubmit => 13
  | .lockWriter => 14

/-- The steps of `send_submit` up to the use of its result. -/
def WriterPc.stepsLeft : WriterPc → ℕ
  | .idle | .panicked => 0
  | .returned _ => 1
  | .remove .. => 2
  | .lockRemove .. => 3
  | .write .. => 4
  | .insert .. => 5
  | .lockInsert .. => 6

/-- A sum of which one term changes. -/
theorem sum_update_add (f : ℕ → ℕ) {t n : ℕ} (below : t < n) (v : ℕ) :
    (Finset.range n).sum (Function.update f t v) + f t = (Finset.range n).sum f + v := by
  have inside : t ∈ Finset.range n := Finset.mem_range.mpr below
  rw [Finset.sum_update_of_mem inside, Finset.sum_eq_add_sum_sdiff_singleton_of_mem inside f]
  omega

namespace Bridge

/-- What the first `n` calls and the reader thread may still do without the server. -/
def stepsLeft (b : Bridge) (n : ℕ) : ℕ :=
  (∑ c ∈ Finset.range n, (b.calls c).pc.stepsLeft) + b.split.writer.stepsLeft + b.fuel

theorem fuel_of_same {b b' : Bridge} (arrived : b'.split.arrived = b.split.arrived)
    (pending : b'.pending = b.pending) (reader : b'.reader = b.reader)
    (splitReader : b'.split.reader = b.split.reader) : b'.fuel = b.fuel := by
  simp only [fuel, arrived, pending, reader, splitReader]

theorem card_insert_le (b : Bridge) (k : UInt32) (c : CallId) :
    (b.pending.insert k c).keys.card ≤ b.pending.keys.card + 1 := by
  have added : (b.pending.insert k c).keys = insert k b.pending.keys := by
    ext j
    simp [Finmap.mem_keys]
  rw [added]
  exact Finset.card_insert_le ..

/-- The step of a call does not touch what the reader thread has to do, but for the entry
it makes. -/
theorem callMove_fuel {b b' : Bridge} {c : CallId} {fates : List Fate}
    (move : CallMove b c fates b') :
    b'.fuel = b.fuel ∨ (∃ seqnum, (b.calls c).pc = .insert seqnum) ∧
      (b'.calls c).pc = .unlockWriter ∧ b'.split = b.split ∧ b'.fuel ≤ b.fuel + 1 := by
  have m := callMove_moves move
  have arrived := (callMove_keeps move).1
  cases move with
  | @insert seqnum pc =>
    refine .inr ⟨⟨seqnum, pc⟩, by simp [setCall], rfl, ?_⟩
    have more := b.card_insert_le seqnum c
    simp only [fuel, setCall]
    omega
  | _ => exact .inl (fuel_of_same arrived rfl m.reader m.splitReader)

/-- A call gets nearer to its end. -/
theorem callMove_stepsLeft {b b' : Bridge} {c : CallId} {fates : List Fate}
    (move : CallMove b c fates b') :
    (b'.calls c).pc.stepsLeft + b'.split.writer.stepsLeft + b'.fuel <
      (b.calls c).pc.stepsLeft + b.split.writer.stepsLeft + b.fuel := by
  rcases callMove_fuel move with same | ⟨⟨seqnum, before⟩, after, split, more⟩
  · rw [same, Nat.add_lt_add_iff_right]
    cases move with
    | poisoned pc | lockWriter pc | lockPending pc | insert pc | unlockWriter pc | received pc
    | disconnected pc => simp [setCall, pc, CallPc.stepsLeft]
    | writing pc wrote =>
      cases Split.writerStep_cases wrote with
      | lockInsert at_ | insert at_ | written at_ | failed at_ | lockRemove at_ | remove at_ =>
        simp [at_, WriterPc.stepsLeft]
    | written pc collect | failed pc collect =>
      obtain ⟨at_, rfl⟩ := Split.collect_cases collect
      simp [setCall, pc, at_, CallPc.stepsLeft, WriterPc.stepsLeft]
    | allocated pc call | panicked pc call =>
      obtain ⟨at_, ⟨_, rfl⟩ | ⟨_, _, _, rfl⟩⟩ := Split.call_cases call <;>
        simp_all [setCall, CallPc.stepsLeft, WriterPc.stepsLeft]
  · rw [before, after, split]
    simp only [CallPc.stepsLeft]
    omega

theorem stepsLeft_call {b b' : Bridge} {c : CallId} {fates : List Fate} {n : ℕ} (below : c < n)
    (move : CallMove b c fates b') : b'.stepsLeft n < b.stepsLeft n := by
  have less := callMove_stepsLeft move
  have terms : (fun d : ℕ => (b'.calls d).pc.stepsLeft) = Function.update
      (fun d : ℕ => (b.calls d).pc.stepsLeft) c (b'.calls c).pc.stepsLeft := by
    funext d
    by_cases same : d = c
    · rw [same, Function.update_self]
    · rw [Function.update_of_ne same, (callMove_moves move).other d same]
  have sums := sum_update_add (fun d => (b.calls d).pc.stepsLeft) below (b'.calls c).pc.stepsLeft
  simp only [stepsLeft, terms] at sums ⊢
  omega

theorem stepsLeft_reader {b b' : Bridge} {a : Action} (scopes : b.Scopes) (n : ℕ)
    (mine : a.ofReader = true) (step : b.step a = some b') : b'.stepsLeft n < b.stepsLeft n := by
  have pc (c : CallId) : (b'.calls c).pc = (b.calls c).pc := by
    cases step_callChange step c with
    | same calls | sent _ _ _ calls => rw [calls]
    | started | moved => cases mine
  simp only [stepsLeft, pc, reader_keeps_writer mine step]
  exact Nat.add_lt_add_left (scopes.fuel_lt mine step) _

/-- A new call has all its steps before it. -/
theorem stepsLeft_start {b b' : Bridge} {n : CallId} {request : UrbRequest}
    (start : b.start n request = some b') : b'.stepsLeft (n + 1) = b.stepsLeft n + 14 := by
  obtain ⟨_, rfl⟩ := start_cases start
  have earlier : ∑ c ∈ Finset.range n, ((b.setCall n { Call.idle with
      request, pc := .lockWriter }).calls c).pc.stepsLeft =
        ∑ c ∈ Finset.range n, (b.calls c).pc.stepsLeft := by
    refine Finset.sum_congr rfl fun c hc => ?_
    rw [setCall_calls_of_ne b _ (Nat.ne_of_lt (Finset.mem_range.mp hc))]
  have same : (b.setCall n { Call.idle with request, pc := .lockWriter }).fuel = b.fuel := rfl
  rw [stepsLeft, Finset.sum_range_succ, earlier, setCall_calls_self, setCall_split, same, stepsLeft]
  simp only [CallPc.stepsLeft]
  omega

end Bridge

/-! ## The programs -/

/-- The price of a call of `submit` has room for all its steps, that of a spawn for the
first round of the new thread. -/
def Op.price : Op → ℕ
  | .ioctl _ => 0
  | .join _ => 1
  | .submit _ => 16
  | .spawn _ => 18

abbrev Op.Free (o : Op) : Prop := o.price = 0

/-- The kernel answers. -/
def Op.pauses : Op → Bool
  | .ioctl _ => true
  | _ => false

def mainFinal : Except IoError LoopState → ℕ
  | .ok _ => 1
  | .error _ => 0

/-- A thread that goes on has another round before it. -/
def threadFinal : Except IoError (Option (List UInt8)) → ℕ
  | .ok (some _) => 18
  | _ => 1

section Prices

theorem costs_submit (request : UrbRequest) : Costs Op.price (submit request) 16 :=
  costs_op (n := 0) fun _ => trivial

theorem costs_ofResult {α : Type} (r : Except IoError α) :
    Costs Op.price (ofResult r : Routine α) 0 := trivial

theorem costs_spawnEpThreads (workers : List Worker) :
    Costs Op.price (spawnEpThreads workers) (18 * workers.length) := by
  induction workers with
  | nil => trivial
  | cons worker workers ih =>
    have first : Costs Op.price (spawn worker) 18 := costs_op (n := 0) fun _ => trivial
    refine Costs.mono (first.bind fun _ => ih.bind (n := 0) fun _ => ?_) ?_
    · trivial
    · rw [List.length_cons]
      omega

theorem costs_joinAll (threads : List ThreadId) :
    Costs Op.price (joinAll threads) threads.length := by
  induction threads with
  | nil => trivial
  | cons thread threads ih =>
    have first : Costs Op.price (join thread) 1 := costs_op (n := 0) fun _ => trivial
    refine Costs.mono (first.bind fun _ => ih) ?_
    rw [List.length_cons]
    omega

/-- What a request for the configured endpoints can cost. -/
def LoopState.endpoints (vars : LoopState) : List UsbEndpointDescriptor :=
  parseEndpointDescriptors (vars.cachedConfigDesc.getD [])

theorem costs_free {α : Type} {p : Routine α} (h : Uses Op.Free p) (n : ℕ) :
    Costs Op.price p n := (Uses.costs h).mono (Nat.zero_le n)

theorem costs_handleSetConfiguration (ctrl : UsbCtrlRequest) (vars : LoopState) :
    Costs Op.price (handleSetConfiguration ctrl vars) (16 + 18 * vars.endpoints.length) := by
  refine (costs_submit _).bind fun reply => ?_
  refine Costs.mono ((costs_ofResult _).bind (n := 18 * vars.endpoints.length) fun resp => ?_)
    (by omega)
  split
  · refine costs_free ?_ _
    exact (uses_ep0Stall (P := Op.Free) rfl).bind fun _ => trivial
  · cases cached : vars.cachedConfigDesc with
    | none => trivial
    | some configData =>
      have handles := costs_free (uses_enableEndpoints (P := Op.Free) (fun _ => rfl)
        (parseEndpointDescriptors configData)) 0
      have power := costs_free (uses_drawPower (P := Op.Free) (fun _ => rfl) configData) 0
      have configured := costs_free (uses_configure (P := Op.Free) rfl) 0
      have acknowledged := costs_free (uses_ep0Read (P := Op.Free) (fun _ => rfl) []) 0
      have spawned (epHandles : List EpHandle) : Costs Op.price (spawnEpThreads
          ((parseEndpointDescriptors configData).zipWith Worker.mk epHandles))
          (18 * vars.endpoints.length) := by
        refine (costs_spawnEpThreads _).mono ?_
        simp only [LoopState.endpoints, cached, Option.getD_some, List.length_zipWith]
        omega
      refine Costs.mono (handles.bind fun epHandles => power.bind fun _ => configured.bind fun _ =>
        acknowledged.bind fun _ => spawned epHandles) ?_
      omega

theorem costs_handleControl (ctrl : UsbCtrlRequest) (vars : LoopState) :
    Costs Op.price (handleControl ctrl vars) (16 + 18 * vars.endpoints.length) := by
  have stalls : Uses Op.Free RawGadgetDevice.ep0Stall := uses_ep0Stall rfl
  have reads (buf : List UInt8) : Uses Op.Free (RawGadgetDevice.ep0Read buf) :=
    uses_ep0Read (fun _ => rfl) buf
  have writes (data : List UInt8) : Uses Op.Free (RawGadgetDevice.ep0Write data) :=
    uses_ep0Write (fun _ _ => rfl) data
  -- every other handler makes one call of `submit`
  have once {α : Type} {p : Routine α} (h : Costs Op.price p 16) :
      Costs Op.price p (16 + 18 * vars.endpoints.length) := h.mono (Nat.le_add_right ..)
  unfold handleControl
  split
  · refine costs_free ?_ _
    exact (reads []).bind fun _ => trivial
  · exact Costs.bind (n := 0) (costs_handleSetConfiguration ctrl vars) fun _ => trivial
  · apply once
    refine Costs.bind (n := 0) (Costs.bind (n := 0) (costs_submit _) fun reply => ?_)
      fun _ => trivial
    refine costs_free ((uses_ofResult _).bind fun resp => ?_) 0
    split
    · exact (writes _).bind fun _ => trivial
    · exact stalls.bind fun _ => trivial
  · apply once
    refine Costs.bind (m := 16) (n := 0) ?_ fun _ => trivial
    refine Costs.mono (Costs.bind (costs_free (reads _) 0) fun read => Costs.bind (n := 0)
      (costs_submit _) fun reply => ?_) ?_
    · refine costs_free ?_ 0
      exact (uses_ofResult _).bind fun _ => trivial
    · omega
  · apply once
    refine Costs.bind (n := 0) (Costs.bind (n := 0) (costs_submit _) fun reply => ?_)
      fun _ => trivial
    refine costs_free ((uses_ofResult _).bind fun resp => ?_) 0
    split
    · exact (reads []).bind fun _ => trivial
    · exact stalls

theorem costs_mainLoop (vars : LoopState) : ∃ n, Costs Op.price (mainLoop vars) n := by
  refine ⟨0 + (16 + 18 * vars.endpoints.length + vars.epThreads.length), ?_⟩
  refine Costs.bind (costs_free ?_ 0) fun event => ?_
  · exact (uses_rawIoctl (P := Op.Free) rfl).bind fun _ => (uses_ofResult _).bind fun _ => trivial
  · unfold handleEvent
    split
    · exact (costs_handleControl _ vars).mono (Nat.le_add_right ..)
    · refine Costs.mono (Costs.bind (n := 0) (costs_joinAll _) fun _ => ?_) (Nat.le_add_left ..)
      trivial
    · refine Costs.mono (Costs.bind (n := 0) (costs_joinAll _) fun _ => ?_) (Nat.le_add_left ..)
      trivial
    all_goals trivial

theorem costs_iteration (w : Worker) (buf : List UInt8) : Costs Op.price (w.iteration buf) 16 := by
  unfold Worker.iteration
  split
  · refine Costs.bind (n := 0) (Costs.bind (n := 0) (costs_submit _) fun reply => ?_)
      fun _ => trivial
    split
    · trivial
    · split
      · trivial
      · refine costs_free ?_ 0
        refine (uses_rawIoctl (P := Op.Free) rfl).bind fun written => ?_
        split <;> trivial
  · refine Costs.mono (Costs.bind (costs_free ?_ 0) (n := 16) fun read => ?_) (by omega)
    · exact (uses_rawIoctl (P := Op.Free) rfl).bind fun _ => trivial
    · split
      · trivial
      · refine Costs.bind (n := 0) (costs_submit _) fun reply => ?_
        split
        · trivial
        · split <;> trivial

end Prices

theorem pauses_mainLoop (vars : LoopState) :
    PausesWithin Op.pauses Op.price mainFinal (mainLoop vars) 0 := by
  intro outside
  cases outside

/-- An IN thread submits before its ioctl, and an OUT thread after it. -/
theorem pauses_iteration (w : Worker) (buf : List UInt8) :
    PausesWithin Op.pauses Op.price threadFinal (w.iteration buf) 17 := by
  unfold Worker.iteration
  split
  · unfold Worker.inIteration
    simp only [submit_bind, op_bind]
    intro _
    refine ⟨Nat.le_succ 16, fun reply => ?_⟩
    cases reply with
    | error e => exact Nat.le_refl _
    | ok resp =>
      simp only
      split
      · exact Nat.le_refl _
      · simp only [RawGadgetDevice.epWrite, rawIoctl_bind, op_bind]
        intro outside
        cases outside
  · intro outside
    cases outside

/-! ## The threads -/

section Activities

variable {σ α : Type} {final : Except IoError α → ℕ} {a : Activity σ α} {n : ℕ}

/-- What has been paid for the call that the thread is in. -/
def Activity.begun (a : Activity σ α) : ℕ := if a.call.isSome then 15 else 0

/-- The thread comes to its next ioctl, or to its end, within `n`. -/
def Activity.Within (final : Except IoError α → ℕ) (a : Activity σ α) (n : ℕ) : Prop :=
  PausesWithin Op.pauses Op.price final a.rest (n + a.begun)

namespace Activity

theorem Within.submit (h : a.Within final n) {request : UrbRequest}
    {k : Except IoError RetSubmit → Routine α} (rest : a.rest = .op (.submit request) k)
    (idle : a.call = none) (c : CallId) :
    16 ≤ n ∧ ({ a with call := some c } : Activity σ α).Within final (n - 15) := by
  simp only [Within, begun, idle, Option.isSome_none, Option.isSome_some, if_true] at h ⊢
  have enough : 16 ≤ n := by
    rw [rest] at h
    exact (h rfl).1
  refine ⟨enough, ?_⟩
  rwa [Nat.sub_add_cancel (by omega)]

theorem Within.resume (h : a.Within final n) {request : UrbRequest}
    {k : Except IoError RetSubmit → Routine α} (rest : a.rest = .op (.submit request) k)
    {c : CallId} (call : a.call = some c) (result : Except IoError RetSubmit) :
    1 ≤ n ∧ (a.answered ⟨.submit request, result⟩ (k result)).Within final (n - 1) := by
  simp only [Within, begun, call, Option.isSome_some, if_true, rest] at h
  obtain ⟨enough, next⟩ := h rfl
  have enough : 16 ≤ n + 15 := enough
  refine ⟨by omega, ?_⟩
  have same : n - 1 = n + 15 - 16 := by omega
  rw [same]
  exact next result

theorem Within.perform (h : a.Within final n) {o : Op} {k : Reply o → Routine α}
    (rest : a.rest = .op o k) (inside : o.pauses = false) (idle : a.call = none)
    (reply : Reply o) :
    o.price ≤ n ∧ (a.answered ⟨o, reply⟩ (k reply)).Within final (n - o.price) := by
  simp only [Within, begun, idle, rest] at h
  obtain ⟨enough, next⟩ := h inside
  exact ⟨enough, next reply⟩

theorem Within.ended (h : a.Within final n) {result : Except IoError α}
    (rest : a.rest = .done result) (idle : a.call = none) : final result ≤ n := by
  simpa [Within, begun, idle, rest, PausesWithin] using h

end Activity

end Activities

namespace System

/-- A bound for all that the program may still do by itself: what each thread may do
before it comes to its next ioctl, and what the bridge may do for the calls begun. -/
def Potential (s : System) (n : ℕ) : Prop := ∃ (m : ℕ) (f : ℕ → ℕ),
  s.main.Within mainFinal m ∧
    (∀ t thread, s.threads t = some thread → thread.activity.Within threadFinal (f t)) ∧
    n = m + (Finset.range s.spawned).sum f + s.bridge.stepsLeft s.called

/-- One data thread changes, and less is left to it and to the bridge. -/
theorem Potential.thread {s s' : System} {m v : ℕ} {f : ℕ → ℕ} {t : ThreadId}
    {thread : Option DataThread} (below : t < s.spawned) (main : s.main.Within mainFinal m)
    (all : ∀ u x, s.threads u = some x → x.activity.Within threadFinal (f u))
    (mine : ∀ x, thread = some x → x.activity.Within threadFinal v)
    (sameMain : s'.main = s.main) (threads : s'.threads = Function.update s.threads t thread)
    (spawned : s'.spawned = s.spawned)
    (less : v + s'.bridge.stepsLeft s'.called < f t + s.bridge.stepsLeft s.called) :
    ∃ n' < m + (Finset.range s.spawned).sum f + s.bridge.stepsLeft s.called, s'.Potential n' := by
  have sums := sum_update_add f below v
  refine ⟨_, ?_, m, Function.update f t v, sameMain ▸ main, fun u x live => ?_, rfl⟩
  · rw [spawned]
    omega
  · rw [threads] at live
    by_cases same : u = t
    · subst same
      rw [Function.update_self] at live ⊢
      exact mine x live
    · rw [Function.update_of_ne same] at live ⊢
      exact all u x live

variable {s s' : System} {n : ℕ}

theorem Callers.mainMove_lowers (callers : s.Callers) (h : s.Potential n) {move : Move}
    (inside : ∀ reply, move ≠ .ioctl reply) (step : MainMove s move s') :
    ∃ n' < n, s'.Potential n' := by
  obtain ⟨m, f, main, all, rfl⟩ := h
  have idle (elsewhere : ∀ request k, s.main.rest ≠ .op (.submit request) k) :
      s.main.call = none :=
    callers.callOf_none (p := .main) fun ⟨request, k, same⟩ => elsewhere request k same
  cases step with
  | ioctl => exact absurd rfl (inside _)
  | submit rest call start =>
    obtain ⟨enough, next⟩ := main.submit rest call s.called
    have more := Bridge.stepsLeft_start start
    refine ⟨_, ?_, _, f, next, all, rfl⟩
    dsimp only
    omega
  | @resume request k c result rest call pc =>
    obtain ⟨enough, next⟩ := main.resume rest call result
    refine ⟨_, ?_, _, f, next, all, rfl⟩
    dsimp only
    omega
  | @spawn worker k rest =>
    obtain ⟨enough, next⟩ := main.perform rest rfl (idle (by simp [rest])) s.spawned
    have enough : 18 ≤ m := enough
    have earlier : (Finset.range s.spawned).sum (Function.update f s.spawned 17) =
        (Finset.range s.spawned).sum f := by
      refine Finset.sum_congr rfl fun t ht => ?_
      exact Function.update_of_ne (Nat.ne_of_lt (Finset.mem_range.mp ht)) ..
    refine ⟨_, ?_, _, Function.update f s.spawned 17, next, fun t thread live => ?_, rfl⟩
    · dsimp only
      rw [Finset.sum_range_succ, earlier, Function.update_self]
      simp only [Op.price]
      omega
    · by_cases new : t = s.spawned
      · subst new
        dsimp only at live
        rw [Function.update_self] at live ⊢
        cases live
        exact pauses_iteration worker worker.initial
      · dsimp only at live
        rw [Function.update_of_ne new] at live ⊢
        exact all t thread live
  | join rest =>
    obtain ⟨enough, next⟩ := main.perform rest rfl (idle (by simp [rest])) ()
    have enough : 1 ≤ m := enough
    refine ⟨_, ?_, _, f, next, all, rfl⟩
    simp only [Op.price]
    omega
  | @next vars rest =>
    have enough : 1 ≤ m := main.ended rest (idle (by simp [rest]))
    refine ⟨_, ?_, 0, f, pauses_mainLoop vars, all, rfl⟩
    dsimp only
    omega

theorem Callers.workerMove_lowers (callers : s.Callers) (h : s.Potential n) {t : ThreadId}
    {thread : DataThread} (live : s.threads t = some thread)
    (inside : ∀ call k, thread.activity.rest ≠ .op (.ioctl call) k)
    (step : WorkerMove s t thread s') : ∃ n' < n, s'.Potential n' := by
  obtain ⟨m, f, main, all, rfl⟩ := h
  have below : t < s.spawned := by
    by_contra later
    cases live.symm.trans (callers.unspawned t (Nat.le_of_not_lt later))
  have mine := all t thread live
  have call : s.callOf (.data t) = thread.activity.call := by simp [callOf, live]
  have idle (elsewhere : ∀ request k, thread.activity.rest ≠ .op (.submit request) k) :
      thread.activity.call = none := by
    rw [← call]
    refine callers.callOf_none ?_
    rintro ⟨_, request, k, found, same⟩
    obtain rfl := Option.some.inj (live.symm.trans found)
    exact elsewhere request k same
  cases step with
  | ioctl rest => exact absurd rest (inside _ _)
  | submit rest idle start =>
    obtain ⟨enough, next⟩ := mine.submit rest idle s.called
    have more := Bridge.stepsLeft_start start
    refine Potential.thread below main all (v := f t - 15) ?_ rfl rfl rfl (by dsimp only; omega)
    rintro _ ⟨⟩
    exact next
  | @resume request k c result rest call pc =>
    obtain ⟨enough, next⟩ := mine.resume rest call result
    refine Potential.thread below main all (v := f t - 1) ?_ rfl rfl rfl
      (by dsimp only [setThread]; omega)
    rintro _ ⟨⟩
    exact next
  | @next buf rest =>
    have enough : 18 ≤ f t := mine.ended rest (idle (by simp [rest]))
    refine Potential.thread below main all (v := 17) ?_ rfl rfl rfl
      (by dsimp only [setThread]; omega)
    rintro _ ⟨⟩
    exact pauses_iteration thread.worker buf
  | @exit result rest =>
    have enough : threadFinal result ≤ f t := mine.ended rest (idle (by simp [rest]))
    have positive : 1 ≤ threadFinal result := by
      unfold threadFinal
      split <;> omega
    refine Potential.thread below main all (v := 0) ?_ rfl rfl rfl
      (by dsimp only [setThread]; omega)
    rintro _ ⟨⟩
  | @unwind c begun pc =>
    obtain ⟨_, request, k, found, rest⟩ := callers.submitting (.data t) c (call.trans begun)
    obtain rfl := Option.some.inj (live.symm.trans found)
    have enough := (mine.resume rest begun (.error readerDisconnected)).1
    refine Potential.thread below main all (v := 0) ?_ rfl rfl rfl
      (by dsimp only [setThread]; omega)
    rintro _ ⟨⟩

theorem Callers.bridgeMove_lowers (callers : s.Callers) (scopes : s.bridge.Scopes)
    (h : s.Potential n) {a : Bridge.Action} {bridge : Bridge} (inside : (Action.bridge a).internal)
    (begun : ∀ c request, a ≠ .start c request) (step : s.bridge.step a = some bridge) :
    ∃ n' < n, ({ s with bridge } : System).Potential n' := by
  obtain ⟨m, f, main, all, rfl⟩ := h
  have less : bridge.stepsLeft s.called < s.bridge.stepsLeft s.called := by
    cases a with
    | start c request => exact absurd rfl (begun c request)
    | call c fates =>
      refine Bridge.stepsLeft_call ?_ (Bridge.callStep_cases step)
      by_contra later
      have idle := callers.unused c (Nat.le_of_not_lt later)
      simp [Bridge.step, Bridge.callStep, idle] at step
    | reader | drain => exact Bridge.stepsLeft_reader scopes s.called rfl step
    | deliver | close => cases inside
  exact ⟨_, Nat.add_lt_add_left less _, m, f, main, all, rfl⟩

/-- Whatever the program does by itself, less is left to it. -/
theorem Callers.step_lowers {a : Action} (callers : s.Callers) (scopes : s.bridge.Scopes)
    (h : s.Potential n) (inside : a.internal) (step : s.step a = some s') :
    ∃ n' < n, s'.Potential n' := by
  cases a with
  | main move =>
    refine callers.mainMove_lowers h ?_ (mainStep_cases step)
    rintro reply rfl
    cases inside
  | thread t move =>
    obtain ⟨thread, live, stepped⟩ := Option.bind_eq_some_iff.mp step
    refine callers.workerMove_lowers h live (fun call k rest => ?_) (threadStep_cases stepped)
    cases move with
    | ioctl reply => cases inside
    | submit | resume | next =>
      simp [threadStep, Activity.submit, Activity.resume, rest] at stepped
    | spawn | join => cases stepped
  | unwind t =>
    obtain ⟨thread, live, unwound⟩ := Option.bind_eq_some_iff.mp step
    refine callers.workerMove_lowers h live (fun call k rest => ?_) (unwind_cases unwound)
    cases begun : thread.activity.call with
    | none => simp [unwind, begun] at unwound
    | some c =>
      obtain ⟨_, _, _, found, same⟩ :=
        callers.submitting (.data t) c (by simp [callOf, live, begun])
      obtain rfl := Option.some.inj (live.symm.trans found)
      cases rest.symm.trans same
  | bridge a =>
    cases a with
    | start c request => cases step
    | _ =>
      obtain ⟨bridge, moved, rfl⟩ := Option.map_eq_some_iff.mp step
      exact callers.bridgeMove_lowers scopes h inside (by simp) moved

section Runs

variable {build : Build} {input : Input} {output : Output} {busnum devnum : UInt32}

theorem exists_potential
    (run : Reaches System.step always (imported build input output busnum devnum) s) :
    ∃ n, s.Potential n := by
  obtain ⟨_, _, standing⟩ := reaches_follows run
  obtain ⟨price, costs⟩ := costs_mainLoop s.main.vars
  obtain ⟨log, logged⟩ := Logged.of_reaches run
  have within {σ α : Type} {final : Except IoError α → ℕ} {a : Activity σ α} {m k : ℕ}
      (h : Costs Op.price a.rest m) (ends : ∀ result, final result ≤ k) :
      a.Within final (m + k) := by
    have priced : PausesWithin Op.pauses Op.price final a.rest (m + a.begun + k) :=
      (h.mono (Nat.le_add_right m a.begun)).pausesWithin ends
    rwa [Nat.add_right_comm] at priced
  refine ⟨_, price + 1, fun _ => 16 + 18, within (costs.after standing) ?_, ?_, rfl⟩
  · intro result
    cases result <;> simp [mainFinal]
  · intro t thread live
    obtain ⟨past, _⟩ := (histories_of_run logged).live live
    obtain ⟨_, _, standing, _⟩ := past.standing
    refine within ((costs_iteration _ _).after standing) fun result => ?_
    unfold threadFinal
    split <;> omega

/-- In every state that the program reaches, the steps that it can still make without
the kernel and the server are bounded in number, whatever their order, and they lead to
where it makes no more of them. -/
theorem settles (run : Reaches System.step always (imported build input output busnum devnum) s) :
    (∃ n, ∀ as s', (∀ a ∈ as, a.internal) → exec System.step s as = some s' → as.length ≤ n) ∧
      ∃ as s', (∀ a ∈ as, a.internal) ∧ exec System.step s as = some s' ∧ s'.Quiescent := by
  have lowers : Lowers System.step (fun a => a.internal = true) fun s n =>
      Reaches System.step always (imported build input output busnum devnum) s ∧
        s.Potential n := by
    rintro s n a s' ⟨run, h⟩ inside step
    have scopes := Bridge.scopes_reachable (reaches_bridge run)
    obtain ⟨n', less, h'⟩ := (callers_reachable run : s.Callers).step_lowers scopes h inside step
    exact ⟨n', less, .next run trivial step, h'⟩
  obtain ⟨n, h⟩ := exists_potential run
  constructor
  · exact ⟨n, fun as s' inside moves => lowers.length_le ⟨run, h⟩ inside moves⟩
  · exact lowers.exec_to_rest ⟨run, h⟩

end Runs

/-- The main thread has asked for the configuration descriptor, and the answer is there. -/
def answerArrived : List Action :=
  [.main (.ioctl (fetchedControl (getConfigDescriptor 25))), .main .submit] ++ runCall 0 ++
    [.bridge (.deliver (answerTo 1 configDescriptor).encode)]

/-- It takes the answer, and comes to rest. -/
theorem settles_answer : ∃ s as s', s.bridge.split.arrived = (answerTo 1 configDescriptor).encode ∧
    (∀ a ∈ as, a.internal) ∧ exec System.step s as = some s' ∧ s'.Quiescent := by
  obtain ⟨s, run, found⟩ := Reaches.of_exec_any System.step always_of_anyStep device answerArrived
    (fun s => decide (s.bridge.split.arrived = (answerTo 1 configDescriptor).encode))
    (by decide +kernel)
  obtain ⟨-, as, s', inside, moves, rest⟩ := settles run
  exact ⟨s, as, s', of_decide_eq_true found, inside, moves, rest⟩

end System

end UsbipDevirt
