import Mathlib.Logic.Basic
import Mathlib.Data.Nat.Notation

/-!
# Guarded runs of labelled partial transitions

A system is a partial function from a state and an action to the next state:
`none` means that the action is not enabled. A guard restricts the steps of a
run by a condition on the state before the step and the action taken there.
The trivial guard gives ordinary reachability.

A machine is such a system that returns something for every action. Its runs
keep a log.
-/

namespace Transition

universe u v w x

variable {σ : Type u} {α : Type v} {τ : Type w} {β : Type x}

/-- Perform the actions in order; `none` as soon as one is not enabled. -/
def exec (step : σ → α → Option σ) : σ → List α → Option σ
  | s, [] => some s
  | s, a :: as => (step s a).bind fun t => exec step t as

/-- Where one of some actions can be taken and shrinks a size, or the goal is there,
these actions lead to the goal. -/
theorem exec_to_goal (step : σ → α → Option σ) (P goal : σ → Prop) (pick : α → Prop)
    (size : σ → ℕ)
    (progress : ∀ s, P s → goal s ∨ ∃ a t, pick a ∧ step s a = some t ∧ P t ∧ size t < size s)
    {s : σ} (h : P s) :
    ∃ as t, (∀ a ∈ as, pick a) ∧ exec step s as = some t ∧ P t ∧ goal t := by
  induction hn : size s using Nat.strongRecOn generalizing s with
  | ind n ih =>
    rcases progress s h with here | ⟨a, t, picked, hstep, ht, smaller⟩
    · exact ⟨[], s, by simp, rfl, h, here⟩
    · obtain ⟨as, u, rest, run, hu, there⟩ := ih (size t) (hn ▸ smaller) ht rfl
      refine ⟨a :: as, u, ?_, ?_, hu, there⟩
      · exact List.forall_mem_cons.mpr ⟨picked, rest⟩
      · rw [exec, hstep, Option.bind_some, run]

/-- A potential that every picked step lowers. -/
def Lowers (step : σ → α → Option σ) (pick : α → Prop) (potential : σ → ℕ → Prop) : Prop :=
  ∀ s n a t, potential s n → pick a → step s a = some t → ∃ m < n, potential t m

namespace Lowers

variable {step : σ → α → Option σ} {pick : α → Prop} {potential : σ → ℕ → Prop}

/-- It bounds the number of picked steps in a row. -/
theorem length_le (lowers : Lowers step pick potential) {s t : σ} {n : ℕ} {as : List α}
    (h : potential s n) (picked : ∀ a ∈ as, pick a) (run : exec step s as = some t) :
    as.length ≤ n := by
  induction as generalizing s n with
  | nil => exact Nat.zero_le _
  | cons a as ih =>
    obtain ⟨first, rest⟩ := List.forall_mem_cons.mp picked
    obtain ⟨u, hstep, run⟩ := Option.bind_eq_some_iff.mp run
    obtain ⟨m, less, hu⟩ := lowers s n a u h first hstep
    exact Nat.lt_of_le_of_lt (ih hu rest run) less

/-- Picked steps lead to where none can be taken. -/
theorem exec_to_rest (lowers : Lowers step pick potential) {s : σ} {n : ℕ} (h : potential s n) :
    ∃ as t, (∀ a ∈ as, pick a) ∧ exec step s as = some t ∧ ∀ a, pick a → step t a = none := by
  induction n using Nat.strongRecOn generalizing s with
  | ind n ih =>
    by_cases rest : ∀ a, pick a → step s a = none
    · exact ⟨[], s, by simp, rfl, rest⟩
    · obtain ⟨a, moves⟩ := Classical.not_forall.mp rest
      obtain ⟨picked, moves⟩ := Classical.not_imp.mp moves
      obtain ⟨t, hstep⟩ := Option.ne_none_iff_exists'.mp moves
      obtain ⟨m, less, ht⟩ := lowers s n a t h picked hstep
      obtain ⟨as, u, later, run, rest⟩ := ih m less ht
      refine ⟨a :: as, u, List.forall_mem_cons.mpr ⟨picked, later⟩, ?_, rest⟩
      rw [exec, hstep, Option.bind_some, run]

end Lowers

/-- States reached by finite runs all of whose steps meet the guard. -/
inductive Reaches (step : σ → α → Option σ) (guard : σ → α → Prop) (start : σ) : σ → Prop
  | start : Reaches step guard start start
  | next {s t : σ} {a : α} : Reaches step guard start s → guard s a → step s a = some t →
      Reaches step guard start t

/-- The steps that pass a test. -/
def restrict (ok : σ → α → Bool) (step : σ → α → Option σ) (s : σ) (a : α) : Option σ :=
  if ok s a then step s a else none

/-- The guard that every step meets. -/
def always (_ : σ) (_ : α) : Prop := True

/-- The test that every step passes. -/
def anyStep (_ : σ) (_ : α) : Bool := true

theorem always_of_anyStep (s : σ) (a : α) (_ : anyStep s a = true) : always s a := trivial

namespace Reaches

variable {step : σ → α → Option σ} {guard : σ → α → Prop} {s₀ s t : σ}

/-- What holds at the start and survives every guarded step holds wherever a
guarded run leads. -/
theorem invariant (P : σ → Prop) (init : P s₀)
    (pres : ∀ s a t, P s → guard s a → step s a = some t → P t)
    (h : Reaches step guard s₀ s) : P s := by
  induction h with
  | start => exact init
  | next _ hg hs ih => exact pres _ _ _ ih hg hs

/-- The same for what needs a size that never shrinks to stay below a limit. -/
theorem invariant_below (P : σ → Prop) (size : σ → ℕ) {limit : ℕ} (init : P s₀)
    (grows : ∀ s a t, step s a = some t → size s ≤ size t)
    (pres : ∀ s a t, P s → guard s a → step s a = some t → size t < limit → P t)
    (h : Reaches step guard s₀ s) (bound : size s < limit) : P s := by
  refine h.invariant (fun s => size s < limit → P s) (fun _ => init) ?_ bound
  intro s a t ih hg hs small
  exact pres s a t (ih (Nat.lt_of_le_of_lt (grows s a t hs) small)) hg hs small

theorem mono {weaker : σ → α → Prop} (imp : ∀ s a, guard s a → weaker s a)
    (h : Reaches step guard s₀ s) : Reaches step weaker s₀ s := by
  induction h with
  | start => exact .start
  | next _ hg hs ih => exact .next ih (imp _ _ hg) hs

theorem trans (h : Reaches step guard s₀ s) (h' : Reaches step guard s t) :
    Reaches step guard s₀ t := by
  induction h' with
  | start => exact h
  | next _ hg hs ih => exact .next ih hg hs

/-- A run given by its actions, each of which passes a test that implies the guard. -/
theorem of_exec {ok : σ → α → Bool} {as : List α} (allowed : ∀ s a, ok s a = true → guard s a)
    (h : exec (restrict ok step) s₀ as = some s) : Reaches step guard s₀ s := by
  induction as generalizing s₀ with
  | nil =>
    obtain rfl := Option.some.inj h
    exact .start
  | cons a as ih =>
    obtain ⟨t, ht, hrest⟩ := Option.bind_eq_some_iff.mp h
    unfold restrict at ht
    split at ht
    · next hok =>
      have first : Reaches step guard s₀ t := .next .start (allowed s₀ a hok) ht
      exact first.trans (ih hrest)
    · cases ht

/-- The same, with what a second test finds at the end of the run. -/
theorem of_exec_any (step : σ → α → Option σ) {ok : σ → α → Bool}
    (allowed : ∀ s a, ok s a = true → guard s a) (s₀ : σ) (as : List α) (test : σ → Bool)
    (found : (exec (restrict ok step) s₀ as).any test = true) :
    ∃ s, Reaches step guard s₀ s ∧ test s = true := by
  obtain ⟨s, hs, htest⟩ := (Option.any_eq_true _ _).mp found
  exact ⟨s, of_exec allowed hs, htest⟩

/-- A map that sends every guarded step either to nothing or to one guarded
step of another system carries reached states to reached states. -/
theorem simulate {step' : τ → β → Option τ} {guard' : τ → β → Prop} (f : σ → τ)
    (sim : ∀ s a t, guard s a → step s a = some t →
      f t = f s ∨ ∃ b, guard' (f s) b ∧ step' (f s) b = some (f t))
    (h : Reaches step guard s₀ s) : Reaches step' guard' (f s₀) (f s) := by
  induction h with
  | start => exact .start
  | next _ hg hs ih =>
    rcases sim _ _ _ hg hs with same | ⟨b, hb, hstep⟩
    · exact same ▸ ih
    · exact .next ih hb hstep

end Reaches

/-! ## Machines -/

/-- An action that was performed, with what it returned and the states around it. -/
structure Entry (σ : Type u) (α : Type v) (β : Type x) where
  before : σ
  action : α
  output : β
  after : σ

/-- The entry with both states seen through `f`. -/
def Entry.map (f : σ → τ) (e : Entry σ α β) : Entry τ α β :=
  ⟨f e.before, e.action, e.output, f e.after⟩

/-- Perform the actions in order and record them. -/
def record (op : σ → α → Option (β × σ)) (log : List (Entry σ α β)) :
    σ → List α → Option (List (Entry σ α β) × σ)
  | s, [] => some (log, s)
  | s, a :: as => (op s a).bind fun (o, t) => record op (log ++ [⟨s, a, o, t⟩]) t as

/-- The finite runs of a machine, each with its log. -/
inductive Logged (op : σ → α → Option (β × σ)) (start : σ) : List (Entry σ α β) → σ → Prop
  | start : Logged op start [] start
  | next {log : List (Entry σ α β)} {s t : σ} {a : α} {o : β} : Logged op start log s →
      op s a = some (o, t) → Logged op start (log ++ [⟨s, a, o, t⟩]) t

namespace Logged

variable {op : σ → α → Option (β × σ)} {s₀ s t : σ} {log : List (Entry σ α β)}

/-- What holds of the empty log and survives every entry holds of every run. -/
theorem invariant (P : List (Entry σ α β) → σ → Prop) (init : P [] s₀)
    (pres : ∀ log s a o t, P log s → op s a = some (o, t) → P (log ++ [⟨s, a, o, t⟩]) t)
    (h : Logged op s₀ log s) : P log s := by
  induction h with
  | start => exact init
  | next _ hop ih => exact pres _ _ _ _ _ ih hop

/-- Every entry of a log was a step of the machine. -/
theorem performed (h : Logged op s₀ log s) :
    ∀ e ∈ log, op e.before e.action = some (e.output, e.after) := by
  refine h.invariant (fun log _ => ∀ e ∈ log, op e.before e.action = some (e.output, e.after))
    (by simp) fun log s a o t ih hop e he => ?_
  rcases List.mem_append.mp he with he | he
  · exact ih e he
  · obtain rfl := List.mem_singleton.mp he
    exact hop

/-- What holds at the start and survives every step holds before every entry. -/
theorem holds_before (P : σ → Prop) (init : P s₀)
    (pres : ∀ s a o t, P s → op s a = some (o, t) → P t) (h : Logged op s₀ log s) :
    ∀ e ∈ log, P e.before := by
  have both := h.invariant (fun log s => (∀ e ∈ log, P e.before) ∧ P s) ⟨by simp, init⟩ ?_
  · exact both.1
  · rintro log s a o t ⟨earlier, here⟩ hop
    refine ⟨?_, pres s a o t here hop⟩
    intro e he
    rcases List.mem_append.mp he with he | he
    · exact earlier e he
    · obtain rfl := List.mem_singleton.mp he
      exact here

/-- A machine that does the same at the image of every state before an entry
runs through the image of the log. -/
theorem image {op' : τ → α → Option (β × τ)} (f : σ → τ)
    (same : ∀ e ∈ log, op' (f e.before) e.action = some (e.output, f e.after))
    (h : Logged op s₀ log s) : Logged op' (f s₀) (log.map (Entry.map f)) (f s) := by
  induction h with
  | start => exact .start
  | next _ _ ih =>
    rw [List.map_append]
    exact .next (ih fun e he => same e (List.mem_append_left _ he)) (same _ (by simp))

/-- A run of a system that returns nothing has a log. -/
theorem of_reaches {step : σ → α → Option σ} {guard : σ → α → Prop}
    (h : Reaches step guard s₀ s) :
    ∃ log, Logged (fun s a => (step s a).map fun t => ((), t)) s₀ log s := by
  induction h with
  | start => exact ⟨[], .start⟩
  | next _ _ hop ih =>
    obtain ⟨log, run⟩ := ih
    exact ⟨_, .next run (by rw [hop, Option.map_some])⟩

/-- What is recorded is a run. -/
theorem of_record {as : List α} {log' : List (Entry σ α β)} (earlier : Logged op s₀ log s)
    (h : record op log s as = some (log', t)) : Logged op s₀ log' t := by
  induction as generalizing log s with
  | nil =>
    obtain ⟨rfl, rfl⟩ := Prod.mk.inj (Option.some.inj h)
    exact earlier
  | cons a as ih =>
    obtain ⟨⟨o, u⟩, hop, later⟩ := Option.bind_eq_some_iff.mp h
    exact ih (.next earlier hop) later

/-- A run given by its actions, with what a test finds in its log and at its end. -/
theorem of_record_any (op : σ → α → Option (β × σ)) (s₀ : σ) (as : List α)
    (test : List (Entry σ α β) → σ → Bool)
    (found : (record op [] s₀ as).any (fun run => test run.1 run.2) = true) :
    ∃ log s, Logged op s₀ log s ∧ test log s = true := by
  obtain ⟨⟨log, s⟩, recorded, tested⟩ := (Option.any_eq_true _ _).mp found
  exact ⟨log, s, of_record .start recorded, tested⟩

/-- The run without its log. -/
theorem reaches {step : σ → α → Option σ} {log : List (Entry σ α Unit)}
    (h : Logged (fun s a => (step s a).map fun t => ((), t)) s₀ log s) :
    Reaches step always s₀ s := by
  induction h with
  | start => exact .start
  | next _ hop ih =>
    obtain ⟨_, move, same⟩ := Option.map_eq_some_iff.mp hop
    cases same
    exact .next ih trivial move

end Logged

/-- What is read off a log entry by entry grows with its last entry. -/
theorem filterMap_snoc {γ : Type w} (f : α → Option γ) (l : List α) (a : α) :
    (l ++ [a]).filterMap f = l.filterMap f ++ (f a).toList := by
  rw [List.filterMap_append]
  cases h : f a <;> simp [h]

end Transition
