import UsbipDevirt.Joining
import UsbipDevirt.Senders

/-!
# Who is in submit

A call of `submit` that has not returned is the call of one thread, the main
thread or a data thread, and a thread is in one call at a time. A sender in
`bridge.pending` is the sender of such a call. So the map never grows beyond the
number of threads, whatever the server sends or withholds.
-/

namespace UsbipDevirt

open Transition

/-- Started, and neither returned nor ended by a panic. -/
def CallPc.underWay : CallPc → Bool
  | .idle | .returned _ | .panicked => false
  | _ => true

theorem CallPc.underWay_of_waiting {pc : CallPc} (waiting : pc.waiting = true) :
    pc.underWay = true := by
  rcases (Bridge.waiting_iff pc).mp waiting with rfl | rfl <;> rfl

namespace Bridge

/-- Only `start` takes an identifier into use, and no call is taken up again. -/
theorem step_underWay {b b' : Bridge} {a : Action} (step : b.step a = some b')
    (inside : ∀ c request, a ≠ .start c request) (c : CallId) :
    ((b'.calls c).pc.underWay = true → (b.calls c).pc.underWay = true) ∧
      ((b'.calls c).pc = .idle ↔ (b.calls c).pc = .idle) := by
  cases step_callChange step c with
  | same calls | sent _ _ _ calls => simp [calls]
  | started => exact absurd rfl (inside _ _)
  | moved move =>
    cases move with
    | writing => exact ⟨id, .rfl⟩
    | poisoned pc | lockWriter pc | allocated pc | panicked pc | written pc | failed pc
    | lockPending pc | insert pc | unlockWriter pc | received pc | disconnected pc =>
      simp [setCall, pc, CallPc.underWay]

end Bridge

/-- The threads that call `submit`. -/
inductive Caller where
  | main
  | data (t : ThreadId)
  deriving DecidableEq

namespace System

/-- The call that a thread is in. -/
def callOf (s : System) : Caller → Option CallId
  | .main => s.main.call
  | .data t => (s.threads t).bind fun thread => thread.activity.call

/-- It stands at a call of `submit`. -/
def AtSubmit (s : System) : Caller → Prop
  | .main => ∃ request k, s.main.rest = .op (.submit request) k
  | .data t => ∃ thread request k, s.threads t = some thread ∧
      thread.activity.rest = .op (.submit request) k

/-- A step has left a thread alone. -/
def Kept (s s' : System) : Caller → Prop
  | .main => s'.main = s.main
  | .data t => s'.threads t = s.threads t

theorem Kept.callOf {s s' : System} {p : Caller} (h : s.Kept s' p) : s'.callOf p = s.callOf p := by
  cases p with
  | main => exact congrArg Activity.call h
  | data t => simp only [System.callOf, show s'.threads t = s.threads t from h]

theorem Kept.atSubmit {s s' : System} {p : Caller} (h : s.Kept s' p) (submits : s.AtSubmit p) :
    s'.AtSubmit p := by
  cases p with
  | main =>
    have same : s'.main = s.main := h
    simpa only [AtSubmit, same] using submits
  | data t =>
    have same : s'.threads t = s.threads t := h
    simpa only [AtSubmit, same] using submits

structure Callers (s : System) : Prop where
  unspawned : ∀ t, s.spawned ≤ t → s.threads t = none
  unused : ∀ c, s.called ≤ c → (s.bridge.calls c).pc = .idle
  used : ∀ p c, s.callOf p = some c → c < s.called ∧ (s.bridge.calls c).pc ≠ .idle
  unique : ∀ p q c, s.callOf p = some c → s.callOf q = some c → p = q
  owned : ∀ c, (s.bridge.calls c).pc.underWay = true → ∃ p, s.callOf p = some c
  submitting : ∀ p c, s.callOf p = some c → s.AtSubmit p

namespace Callers

theorem initial (split : Split) : (new (.new split)).Callers where
  unspawned _ _ := rfl
  unused _ _ := rfl
  used p c h := by cases p <;> cases h
  unique p _ c h := by cases p <;> cases h
  owned c h := by cases h
  submitting p c h := by cases p <;> cases h

variable {s s' : System}

/-- A thread that is not in a call, or in one that is over, goes on. -/
theorem leave (h : s.Callers) (p : Caller) (done : ∀ c, s.callOf p = some c →
      (s.bridge.calls c).pc.underWay = false)
    (mine : s'.callOf p = none)
    (others : ∀ q, q ≠ p → s.Kept s' q ∨ s.callOf q = none ∧ s'.callOf q = none)
    (bridge : s'.bridge = s.bridge) (called : s'.called = s.called)
    (unspawned : ∀ t, s'.spawned ≤ t → s'.threads t = none) : s'.Callers := by
  have same (q : Caller) (c : CallId) (hq : s'.callOf q = some c) :
      s.callOf q = some c ∧ s'.AtSubmit q := by
    by_cases here : q = p
    · subst here
      cases mine.symm.trans hq
    · rcases others q here with kept | ⟨_, none⟩
      · have before := kept.callOf.symm.trans hq
        exact ⟨before, kept.atSubmit (h.submitting q c before)⟩
      · cases none.symm.trans hq
  refine ⟨unspawned, ?_, ?_, ?_, ?_, fun q c hq => (same q c hq).2⟩
  · rw [bridge, called]
    exact h.unused
  · intro q c hq
    rw [bridge, called]
    exact h.used q c (same q c hq).1
  · exact fun q r c hq hr => h.unique q r c (same q c hq).1 (same r c hr).1
  · intro c underWay
    rw [bridge] at underWay
    obtain ⟨q, hq⟩ := h.owned c underWay
    by_cases here : q = p
    · subst here
      rw [done c hq] at underWay
      cases underWay
    · rcases others q here with kept | ⟨none, _⟩
      · exact ⟨q, kept.callOf.trans hq⟩
      · cases none.symm.trans hq

/-- A thread enters `submit`. -/
theorem enter (h : s.Callers) (p : Caller) {request : UrbRequest} {bridge : Bridge}
    (start : s.bridge.start s.called request = some bridge)
    (before : s.callOf p = none) (mine : s'.callOf p = some s.called) (submits : s'.AtSubmit p)
    (others : ∀ q, q ≠ p → s.Kept s' q) (hbridge : s'.bridge = bridge)
    (called : s'.called = s.called + 1)
    (unspawned : ∀ t, s'.spawned ≤ t → s'.threads t = none) : s'.Callers := by
  obtain ⟨_, rfl⟩ := Bridge.start_cases start
  have calls (c : CallId) : (s'.bridge.calls c).pc =
      if c = s.called then .lockWriter else (s.bridge.calls c).pc := by
    rw [hbridge, Bridge.pc_setCall]
  have cases (q : Caller) (c : CallId) (hq : s'.callOf q = some c) :
      (q = p ∧ c = s.called) ∨ (q ≠ p ∧ s.callOf q = some c ∧ c < s.called ∧ s'.AtSubmit q) := by
    by_cases here : q = p
    · subst here
      exact .inl ⟨rfl, Option.some.inj (hq.symm.trans mine)⟩
    · have before := (others q here).callOf.symm.trans hq
      exact .inr ⟨here, before, (h.used q c before).1,
        (others q here).atSubmit (h.submitting q c before)⟩
  refine ⟨unspawned, ?_, ?_, ?_, ?_, ?_⟩
  · intro c later
    rw [called] at later
    rw [calls, if_neg (Nat.ne_of_gt later)]
    exact h.unused c (Nat.le_of_succ_le later)
  · intro q c hq
    rw [calls, called]
    rcases cases q c hq with ⟨_, rfl⟩ | ⟨_, before, below, _⟩
    · exact ⟨Nat.lt_succ_self _, by simp⟩
    · rw [if_neg (Nat.ne_of_lt below)]
      exact ⟨Nat.lt_succ_of_lt below, (h.used q c before).2⟩
  · intro q r c hq hr
    rcases cases q c hq with ⟨rfl, rfl⟩ | ⟨_, hq, below, _⟩
    · rcases cases r _ hr with ⟨rfl, _⟩ | ⟨_, _, below, _⟩
      · rfl
      · exact absurd below (Nat.lt_irrefl _)
    · rcases cases r c hr with ⟨_, rfl⟩ | ⟨_, hr, _, _⟩
      · exact absurd below (Nat.lt_irrefl _)
      · exact h.unique q r c hq hr
  · intro c underWay
    rw [calls] at underWay
    split at underWay
    · next same => exact ⟨p, same ▸ mine⟩
    · obtain ⟨q, hq⟩ := h.owned c underWay
      by_cases here : q = p
      · subst here
        cases before.symm.trans hq
      · exact ⟨q, (others q here).callOf.trans hq⟩
  · intro q c hq
    rcases cases q c hq with ⟨rfl, _⟩ | ⟨_, _, _, still⟩
    · exact submits
    · exact still

theorem callOf_none (h : s.Callers) {p : Caller} (elsewhere : ¬ s.AtSubmit p) :
    s.callOf p = none := by
  cases found : s.callOf p with
  | none => rfl
  | some c => exact absurd (h.submitting p c found) elsewhere

/-- Not in a call, so in none that is under way. -/
theorem over_of_none {p : Caller} (none : s.callOf p = none) (c : CallId)
    (hc : s.callOf p = some c) : (s.bridge.calls c).pc.underWay = false := by
  cases none.symm.trans hc

theorem mainMove (h : s.Callers) {move : Move} (step : MainMove s move s') : s'.Callers := by
  have elsewhere (rest : ∀ request k, s.main.rest ≠ .op (.submit request) k) :
      s.callOf .main = none := h.callOf_none fun ⟨request, k, same⟩ => rest request k same
  have others {s' : System} {q : Caller} (threads : s'.threads = s.threads) (hq : q ≠ .main) :
      s.Kept s' q := by
    cases q with
    | main => exact absurd rfl hq
    | data t => exact congrFun threads t
  cases step with
  | ioctl rest | join rest | next rest =>
    have none := elsewhere (by simp [rest])
    exact h.leave .main (over_of_none none) rfl (fun _ hq => .inl (others rfl hq)) rfl rfl
      h.unspawned
  | spawn rest =>
    have none := elsewhere (by simp [rest])
    refine h.leave .main (over_of_none none) rfl (fun q hq => ?_) rfl rfl (fun t later => ?_)
    · cases q with
      | main => exact absurd rfl hq
      | data t =>
        by_cases new : t = s.spawned
        · subst new
          have before := h.unspawned s.spawned (Nat.le_refl _)
          exact .inr ⟨by simp [callOf, before], by simp [callOf, DataThread.enter, Activity.enter]⟩
        · exact .inl (Function.update_of_ne new ..)
    · have later : s.spawned + 1 ≤ t := later
      show Function.update s.threads s.spawned _ t = Option.none
      rw [Function.update_of_ne (Nat.ne_of_gt later)]
      exact h.unspawned t (Nat.le_of_succ_le later)
  | submit rest call start =>
    exact h.enter .main start call rfl ⟨_, _, rest⟩ (fun _ hq => others rfl hq) rfl rfl
      h.unspawned
  | resume rest call pc =>
    refine h.leave .main (fun c hc => ?_) rfl (fun _ hq => .inl (others rfl hq)) rfl rfl
      h.unspawned
    obtain rfl := Option.some.inj (call.symm.trans hc)
    rw [pc]
    rfl

theorem workerMove (h : s.Callers) {t : ThreadId} {thread : DataThread}
    (live : s.threads t = some thread) (step : WorkerMove s t thread s') : s'.Callers := by
  have elsewhere (rest : ∀ request k, thread.activity.rest ≠ .op (.submit request) k) :
      s.callOf (.data t) = none := by
    refine h.callOf_none ?_
    rintro ⟨_, request, k, found, same⟩
    obtain rfl := Option.some.inj (live.symm.trans found)
    exact rest request k same
  have mine : s.callOf (.data t) = thread.activity.call := by simp [callOf, live]
  have others {thread' : Option DataThread} {s' : System} {q : Caller} (main : s'.main = s.main)
      (threads : s'.threads = Function.update s.threads t thread') (hq : q ≠ .data t) :
      s.Kept s' q := by
    cases q with
    | main => exact main
    | data u =>
      show s'.threads u = s.threads u
      rw [threads]
      exact Function.update_of_ne (fun same => hq (congrArg Caller.data same)) ..
  have unspawned (thread' : Option DataThread) (u : ThreadId) (later : s.spawned ≤ u) :
      Function.update s.threads t thread' u = none := by
    have new : u ≠ t := by
      rintro rfl
      cases live.symm.trans (h.unspawned u later)
    rw [Function.update_of_ne new]
    exact h.unspawned u later
  have now (thread' : DataThread) : Function.update s.threads t (some thread') t = some thread' :=
    Function.update_self ..
  cases step with
  | ioctl rest =>
    have none := elsewhere (by simp [rest])
    exact h.leave (.data t) (over_of_none none) (by simp [callOf, setThread, Activity.answered])
      (fun _ hq => .inl (others rfl rfl hq)) rfl rfl (unspawned _)
  | next rest =>
    have none := elsewhere (by simp [rest])
    exact h.leave (.data t) (over_of_none none)
      (by simp [callOf, setThread, DataThread.enter, Activity.enter])
      (fun _ hq => .inl (others rfl rfl hq)) rfl rfl (unspawned _)
  | exit rest =>
    have none := elsewhere (by simp [rest])
    exact h.leave (.data t) (over_of_none none) (by simp [callOf, setThread])
      (fun _ hq => .inl (others rfl rfl hq)) rfl rfl (unspawned _)
  | submit rest call start =>
    exact h.enter (.data t) start (mine.trans call) (by simp [callOf, setThread])
      ⟨_, _, _, now _, rest⟩ (fun _ hq => others rfl rfl hq) rfl rfl (unspawned _)
  | resume rest call pc =>
    refine h.leave (.data t) (fun c hc => ?_) (by simp [callOf, setThread, Activity.answered])
      (fun _ hq => .inl (others rfl rfl hq)) rfl rfl (unspawned _)
    obtain rfl := Option.some.inj (call.symm.trans (mine.symm.trans hc))
    rw [pc]
    rfl
  | unwind call pc =>
    refine h.leave (.data t) (fun c hc => ?_) (by simp [callOf, setThread])
      (fun _ hq => .inl (others rfl rfl hq)) rfl rfl (unspawned _)
    obtain rfl := Option.some.inj (call.symm.trans (mine.symm.trans hc))
    rw [pc]
    rfl

theorem bridgeMove (h : s.Callers) {a : Bridge.Action} {bridge : Bridge}
    (step : s.bridge.step a = some bridge) (inside : ∀ c request, a ≠ .start c request) :
    ({ s with bridge } : System).Callers where
  unspawned := h.unspawned
  unused c later := ((Bridge.step_underWay step inside c).2).mpr (h.unused c later)
  used p c hc := by
    obtain ⟨below, begun⟩ := h.used p c hc
    exact ⟨below, fun idle => begun (((Bridge.step_underWay step inside c).2).mp idle)⟩
  unique := h.unique
  owned c underWay := h.owned c ((Bridge.step_underWay step inside c).1 underWay)
  submitting := h.submitting

theorem step (h : s.Callers) {a : Action} (move : s.step a = some s') : s'.Callers := by
  cases step_cases move with
  | main hop => exact h.mainMove hop
  | thread live hop => exact h.workerMove live hop
  | bridge hop inside => exact h.bridgeMove hop inside

end Callers

theorem callers_reachable {guard : System → Action → Prop} {split : Split} {s : System}
    (run : Reaches System.step guard (new (.new split)) s) : s.Callers :=
  run.invariant Callers (.initial split) fun _ _ _ h _ move => h.step move

end System

end UsbipDevirt
