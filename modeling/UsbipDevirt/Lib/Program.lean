import Mathlib.Algebra.GroupWithZero.Nat
import Mathlib.Logic.Basic

/-!
# Programs that perform operations

A program is a tree of operations with one branch for each reply. The
environment chooses the replies; a trace records what was asked and answered.
A program may end with an error, which skips what is sequenced after it.
-/

namespace Program

universe u v w

variable {Op : Type u} {Reply : Op → Type v} {ε α β : Type v}

inductive Prog {Op : Type u} (Reply : Op → Type v) (ε α : Type v) : Type (max u v)
  | done (result : Except ε α)
  | op (o : Op) (k : Reply o → Prog Reply ε α)

/-- An operation with its reply. -/
structure Event {Op : Type u} (Reply : Op → Type v) where
  op : Op
  reply : Reply op

namespace Prog

protected def bind (p : Prog Reply ε α) (f : α → Prog Reply ε β) : Prog Reply ε β :=
  match p with
  | .done (.error e) => .done (.error e)
  | .done (.ok a) => f a
  | .op o k => .op o fun reply => (k reply).bind f

instance : Monad (Prog Reply ε) where
  pure a := .done (.ok a)
  bind := Prog.bind

def perform (o : Op) : Prog Reply ε (Reply o) := .op o fun reply => .done (.ok reply)

/-- Where a program stands after a trace. -/
inductive After : Prog Reply ε α → List (Event Reply) → Prog Reply ε α → Prop
  | nil {p : Prog Reply ε α} : After p [] p
  | cons {o : Op} {k : Reply o → Prog Reply ε α} {reply : Reply o} {es : List (Event Reply)}
      {q : Prog Reply ε α} : After (k reply) es q → After (.op o k) (⟨o, reply⟩ :: es) q

/-- The program has come to its end. -/
def Runs (p : Prog Reply ε α) (es : List (Event Reply)) (result : Except ε α) : Prop :=
  After p es (.done result)

section Rules

variable {p q r : Prog Reply ε α} {o : Op} {k : Reply o → Prog Reply ε α}
  {f : α → Prog Reply ε β} {es fs : List (Event Reply)}

@[simp] theorem pure_eq (a : α) : (pure a : Prog Reply ε α) = .done (.ok a) := rfl

@[simp] theorem done_ok_bind (a : α) : (Prog.done (.ok a) : Prog Reply ε α) >>= f = f a := rfl

@[simp] theorem done_error_bind (e : ε) :
    (Prog.done (.error e) : Prog Reply ε α) >>= f = .done (.error e) := rfl

@[simp] theorem op_bind : Prog.op o k >>= f = .op o fun reply => k reply >>= f := rfl

theorem bind_assoc_prog {γ : Type v} (g : β → Prog Reply ε γ) :
    p >>= f >>= g = p >>= fun a => f a >>= g := by
  induction p with
  | done result => cases result <;> rfl
  | op o k ih =>
    simp only [op_bind]
    congr 1
    funext reply
    exact ih reply

theorem after_done_iff {result : Except ε α} :
    After (.done result) es q ↔ es = [] ∧ q = .done result := by
  constructor
  · intro h
    cases h
    exact ⟨rfl, rfl⟩
  · rintro ⟨rfl, rfl⟩
    exact .nil

theorem after_op_iff : After (.op o k) es q ↔ (es = [] ∧ q = .op o k) ∨
    ∃ reply rest, es = ⟨o, reply⟩ :: rest ∧ After (k reply) rest q := by
  constructor
  · intro h
    cases h with
    | nil => exact .inl ⟨rfl, rfl⟩
    | cons rest => exact .inr ⟨_, _, rfl, rest⟩
  · rintro (⟨rfl, rfl⟩ | ⟨reply, rest, rfl, h⟩)
    · exact .nil
    · exact .cons h

theorem After.trans (h : After p es q) (h' : After q fs r) : After p (es ++ fs) r := by
  induction h with
  | nil => exact h'
  | cons _ ih => exact .cons (ih h')

theorem After.snoc {reply : Reply o} (h : After p es (.op o k)) :
    After p (es ++ [⟨o, reply⟩]) (k reply) := h.trans (.cons .nil)

@[simp] theorem runs_done_iff {result result' : Except ε α} :
    Runs (.done result) es result' ↔ es = [] ∧ result' = result := by
  unfold Runs
  rw [after_done_iff, Prog.done.injEq]

@[simp] theorem runs_op_iff {result : Except ε α} :
    Runs (.op o k) es result ↔
      ∃ reply rest, es = ⟨o, reply⟩ :: rest ∧ Runs (k reply) rest result := by
  unfold Runs
  rw [after_op_iff]
  simp

/-- A sequence runs its first part to the end and then the second, unless the
first part fails. -/
theorem runs_bind_iff {result : Except ε β} : Runs (p >>= f) es result ↔
    (∃ e, Runs p es (.error e) ∧ result = .error e) ∨
      ∃ a first rest, es = first ++ rest ∧ Runs p first (.ok a) ∧ Runs (f a) rest result := by
  induction p generalizing es with
  | done r =>
    cases r with
    | error e =>
      simp only [done_error_bind, runs_done_iff, reduceCtorEq, and_false, false_and, exists_false,
        or_false]
      constructor
      · rintro ⟨rfl, rfl⟩
        exact ⟨e, ⟨rfl, rfl⟩, rfl⟩
      · rintro ⟨_, ⟨rfl, ⟨⟩⟩, rfl⟩
        exact ⟨rfl, rfl⟩
    | ok a =>
      simp only [done_ok_bind, runs_done_iff, reduceCtorEq, and_false, false_and, exists_false,
        false_or]
      constructor
      · exact fun h => ⟨a, [], es, rfl, ⟨rfl, rfl⟩, h⟩
      · rintro ⟨_, _, rest, rfl, ⟨rfl, ⟨⟩⟩, h⟩
        exact h
  | op o k ih =>
    simp only [op_bind, runs_op_iff, ih]
    constructor
    · rintro ⟨reply, rest, rfl, ⟨e, h, rfl⟩ | ⟨a, first, last, rfl, h, h'⟩⟩
      · exact .inl ⟨e, ⟨reply, rest, rfl, h⟩, rfl⟩
      · exact .inr ⟨a, ⟨o, reply⟩ :: first, last, rfl, ⟨reply, first, rfl, h⟩, h'⟩
    · rintro (⟨e, ⟨reply, rest, rfl, h⟩, rfl⟩ | ⟨a, _, last, rfl, ⟨reply, first, rfl, h⟩, h'⟩)
      · exact ⟨reply, rest, rfl, .inl ⟨e, h, rfl⟩⟩
      · exact ⟨reply, first ++ last, rfl, .inr ⟨a, first, last, rfl, h, h'⟩⟩

theorem Runs.of_bind_pure {g : α → β} {result : Except ε β}
    (h : Runs (p >>= fun a => pure (g a)) es result) : ∃ result', Runs p es result' := by
  rcases runs_bind_iff.mp h with ⟨e, failed, _⟩ | ⟨a, first, rest, rfl, ended, last⟩
  · exact ⟨_, failed⟩
  · obtain ⟨rfl, _⟩ := runs_done_iff.mp last
    exact ⟨_, by rwa [List.append_nil]⟩

end Rules

/-- The run of a program that an oracle answers. -/
def answer (oracle : ∀ o, Reply o) : Prog Reply ε α → List (Event Reply) × Except ε α
  | .done result => ([], result)
  | .op o k =>
    let (es, result) := (k (oracle o)).answer oracle
    (⟨o, oracle o⟩ :: es, result)

theorem runs_answer (oracle : ∀ o, Reply o) (p : Prog Reply ε α) :
    Runs p (p.answer oracle).1 (p.answer oracle).2 := by
  induction p with
  | done result => exact .nil
  | op o k ih => exact .cons (ih _)

theorem reply_of_mem_answer {oracle : ∀ o, Reply o} {p : Prog Reply ε α} {e : Event Reply}
    (h : e ∈ (p.answer oracle).1) : e.reply = oracle e.op := by
  induction p with
  | done result => cases h
  | op o k ih =>
    rcases List.mem_cons.mp h with rfl | later
    · rfl
    · exact ih _ later

/-! ## Loops -/

/-- The iterations of a loop, each with its trace. -/
inductive Iterates (body : α → Prog Reply ε α) (start : α) : List (List (Event Reply)) → α → Prop
  | start : Iterates body start [] start
  | next {ess : List (List (Event Reply))} {es : List (Event Reply)} {a b : α} :
      Iterates body start ess a → Runs (body a) es (.ok b) → Iterates body start (ess ++ [es]) b

theorem Iterates.of_nil {body : α → Prog Reply ε α} {start a : α}
    (h : Iterates body start [] a) : a = start := by
  generalize none : ([] : List (List (Event Reply))) = ess at h
  cases h with
  | start => rfl
  | next => simp at none

/-- What each iteration computes from its trace, the loop computes by a fold. -/
theorem Iterates.foldl {body : α → Prog Reply ε α} {start a : α}
    {ess : List (List (Event Reply))} (view : α → β) {f : β → List (Event Reply) → β}
    (each : ∀ a es b, Runs (body a) es (.ok b) → view b = f (view a) es)
    (h : Iterates body start ess a) : view a = ess.foldl f (view start) := by
  induction h with
  | start => rfl
  | next _ run ih => rw [each _ _ _ run, ih, List.foldl_append, List.foldl_cons, List.foldl_nil]

/-! ## Programs that keep to some operations -/

/-- Whatever the replies, only operations that meet `P` are performed. -/
def Uses (P : Op → Prop) : Prog Reply ε α → Prop
  | .done _ => True
  | .op o k => P o ∧ ∀ reply, Uses P (k reply)

section Uses

variable {P Q : Op → Prop} {p q : Prog Reply ε α} {f : α → Prog Reply ε β}
  {es : List (Event Reply)}

@[simp] theorem uses_done {result : Except ε α} : Uses P (.done result : Prog Reply ε α) := trivial

@[simp] theorem uses_op {o : Op} {k : Reply o → Prog Reply ε α} :
    Uses P (.op o k) ↔ P o ∧ ∀ reply, Uses P (k reply) := .rfl

theorem Uses.mono (imp : ∀ o, P o → Q o) (h : Uses P p) : Uses Q p := by
  induction p with
  | done result => trivial
  | op o k ih => exact ⟨imp o h.1, fun reply => ih reply (h.2 reply)⟩

theorem Uses.bind (hp : Uses P p) (hf : ∀ a, Uses P (f a)) : Uses P (p >>= f) := by
  induction p with
  | done result =>
    cases result with
    | error e => trivial
    | ok a => exact hf a
  | op o k ih => exact ⟨hp.1, fun reply => ih reply (hp.2 reply)⟩

theorem Uses.after (h : Uses P p) (run : After p es q) : (∀ e ∈ es, P e.op) ∧ Uses P q := by
  induction run with
  | nil => exact ⟨by simp, h⟩
  | cons _ ih =>
    obtain ⟨hes, hq⟩ := ih (h.2 _)
    exact ⟨by simpa using ⟨h.1, hes⟩, hq⟩

end Uses

/-! ## What a program costs

Operations have prices. At some of them a program pauses, until it is answered
from outside.
-/

/-- All operations together cost at most `n`, whatever the replies. -/
def Costs (price : Op → ℕ) : Prog Reply ε α → ℕ → Prop
  | .done _, _ => True
  | .op o k, n => price o ≤ n ∧ ∀ reply, Costs price (k reply) (n - price o)

/-- Up to its next pause, what the program does costs at most `n`; at its end, what
follows is taken into account. -/
def PausesWithin (pauses : Op → Bool) (price : Op → ℕ) (final : Except ε α → ℕ) :
    Prog Reply ε α → ℕ → Prop
  | .done result, n => final result ≤ n
  | .op o k, n => pauses o = false →
      price o ≤ n ∧ ∀ reply, PausesWithin pauses price final (k reply) (n - price o)

section Costs

variable {pauses : Op → Bool} {price : Op → ℕ} {final : Except ε α → ℕ} {p q : Prog Reply ε α}
  {f : α → Prog Reply ε β} {es : List (Event Reply)} {m n : ℕ}

@[simp] theorem costs_done (result : Except ε α) :
    Costs price (.done result : Prog Reply ε α) n := trivial

theorem costs_op {o : Op} {k : Reply o → Prog Reply ε α} (h : ∀ reply, Costs price (k reply) n) :
    Costs price (.op o k) (price o + n) := by
  refine ⟨Nat.le_add_right .., fun reply => ?_⟩
  rw [Nat.add_sub_cancel_left]
  exact h reply

theorem Costs.mono (h : Costs price p m) (le : m ≤ n) : Costs price p n := by
  induction p generalizing m n with
  | done result => trivial
  | op o k ih =>
    exact ⟨Nat.le_trans h.1 le, fun reply => ih reply (h.2 reply) (Nat.sub_le_sub_right le _)⟩

theorem Costs.bind (hp : Costs price p m) (hf : ∀ a, Costs price (f a) n) :
    Costs price (p >>= f) (m + n) := by
  induction p generalizing m with
  | done result =>
    cases result with
    | error e => trivial
    | ok a => exact (hf a).mono (Nat.le_add_left ..)
  | op o k ih =>
    refine ⟨Nat.le_trans hp.1 (Nat.le_add_right ..), fun reply => ?_⟩
    rw [Nat.sub_add_comm hp.1]
    exact ih reply (hp.2 reply)

/-- A program that keeps to what is free costs nothing. -/
theorem Uses.costs (h : Uses (fun o => price o = 0) p) : Costs price p 0 := by
  induction p with
  | done result => trivial
  | op o k ih => exact ⟨Nat.le_of_eq h.1, fun reply => (ih reply (h.2 reply)).mono (Nat.zero_le _)⟩

theorem Costs.after (h : Costs price p n) (run : After p es q) : Costs price q n := by
  induction run with
  | nil => exact h
  | cons _ ih => exact ih ((h.2 _).mono (Nat.sub_le ..))

/-- What was paid for on the way is no longer left. -/
theorem Costs.paid (h : Costs price p n) (run : After p es q) :
    ∃ m, Costs price q m ∧ (es.map fun e => price e.op).sum + m ≤ n := by
  induction run generalizing n with
  | nil => exact ⟨n, h, by simp⟩
  | cons _ ih =>
    obtain ⟨m, left, paid⟩ := ih (h.2 _)
    refine ⟨m, left, ?_⟩
    have first := h.1
    simp only [List.map_cons, List.sum_cons]
    omega

theorem Costs.pausesWithin (h : Costs price p m) (ends : ∀ result, final result ≤ n) :
    PausesWithin pauses price final p (m + n) := by
  induction p generalizing m with
  | done result => exact Nat.le_trans (ends result) (Nat.le_add_left ..)
  | op o k ih =>
    intro _
    refine ⟨Nat.le_trans h.1 (Nat.le_add_right ..), fun reply => ?_⟩
    rw [Nat.sub_add_comm h.1]
    exact ih reply (h.2 reply)

end Costs

/-! ## Programs that stop at the first failure -/

/-- What `stop` finds of an event is what the program ends with, without another operation. -/
def Stops (stop : Event Reply → Option (Except ε α)) : Prog Reply ε α → Prop
  | .done _ => True
  | .op o k => ∀ reply, (∀ result, stop ⟨o, reply⟩ = some result → k reply = .done result) ∧
      (stop ⟨o, reply⟩ = none → Stops stop (k reply))

/-- Events that fail end the program with their error. -/
def failing (failed : Event Reply → Option ε) (e : Event Reply) : Option (Except ε α) :=
  (failed e).map .error

theorem failing_eq_none {failed : Event Reply → Option ε} {e : Event Reply} :
    (failing failed e : Option (Except ε α)) = none ↔ failed e = none := Option.map_eq_none_iff

section Stops

variable {stop : Event Reply → Option (Except ε α)} {failed : Event Reply → Option ε}
  {p : Prog Reply ε α} {es : List (Event Reply)}

theorem stops_done (result : Except ε α) : Stops stop (.done result) := trivial

theorem Stops.bind {f : α → Prog Reply ε β} (hp : Stops (failing failed) p)
    (hf : ∀ a, Stops (failing failed) (f a)) : Stops (failing failed) (p >>= f) := by
  induction p with
  | done result =>
    cases result with
    | error e => trivial
    | ok a => exact hf a
  | op o k ih =>
    intro reply
    obtain ⟨ends, goesOn⟩ := hp reply
    constructor
    · intro result h
      obtain ⟨e, he, rfl⟩ := Option.map_eq_some_iff.mp h
      show (k reply >>= f) = _
      rw [ends (.error e) (Option.map_eq_some_iff.mpr ⟨e, he, rfl⟩), done_error_bind]
    · exact fun h => ih reply (goesOn (failing_eq_none.mpr (failing_eq_none.mp h)))

/-- In a run either nothing stopped the program, or its last event did. -/
theorem Stops.of_runs {result : Except ε α} (h : Stops stop p) (run : Runs p es result) :
    (∀ e ∈ es, stop e = none) ∨ ∃ before last, es = before ++ [last] ∧
      (∀ e ∈ before, stop e = none) ∧ stop last = some result := by
  induction p generalizing es with
  | done r =>
    obtain ⟨rfl, rfl⟩ := runs_done_iff.mp run
    exact .inl (by simp)
  | op o k ih =>
    obtain ⟨reply, rest, rfl, hrest⟩ := runs_op_iff.mp run
    obtain ⟨ends, goesOn⟩ := h reply
    cases found : stop ⟨o, reply⟩ with
    | some r =>
      rw [ends r found] at hrest
      obtain ⟨rfl, rfl⟩ := runs_done_iff.mp hrest
      exact .inr ⟨[], _, rfl, by simp, found⟩
    | none =>
      rcases ih reply (goesOn found) hrest with clean | ⟨before, last, rfl, clean, stopped⟩
      · exact .inl (List.forall_mem_cons.mpr ⟨found, clean⟩)
      · exact .inr ⟨_ :: before, last, rfl, List.forall_mem_cons.mpr ⟨found, clean⟩, stopped⟩

/-- Nothing has stopped a program that stands before an operation. -/
theorem Stops.of_after {o : Op} {k : Reply o → Prog Reply ε α} (h : Stops stop p)
    (run : After p es (.op o k)) : ∀ e ∈ es, stop e = none := by
  generalize hq : Prog.op o k = q at run
  induction run with
  | nil => simp
  | @cons o' k' reply es q rest ih =>
    obtain ⟨ends, goesOn⟩ := h reply
    cases found : stop ⟨o', reply⟩ with
    | some r =>
      subst hq
      rw [ends r found] at rest
      cases (after_done_iff.mp rest).2
    | none => exact List.forall_mem_cons.mpr ⟨found, ih (goesOn found) hq⟩

end Stops

/-! ## Programs that follow a script -/

/-- It performs these operations in order, all of them if it returns. -/
def Scripted (script : List Op) (p : Prog Reply ε α) : Prop :=
  ∀ es q, After p es q → es.map Event.op <+: script ∧
    ∀ a, q = .done (.ok a) → es.map Event.op = script

/-- A sequence stands inside its first part or inside the second. -/
theorem After.bind_cases {p : Prog Reply ε α} {f : α → Prog Reply ε β} {es : List (Event Reply)}
    {q : Prog Reply ε β} (run : After (p >>= f) es q) :
    (∃ p', After p es p' ∧ (∀ a, p' ≠ .done (.ok a)) ∧ q = p' >>= f) ∨
      ∃ a first rest, es = first ++ rest ∧ Runs p first (.ok a) ∧ After (f a) rest q := by
  induction p generalizing es with
  | done result =>
    cases result with
    | error e =>
      obtain ⟨rfl, rfl⟩ := after_done_iff.mp run
      exact .inl ⟨_, .nil, nofun, rfl⟩
    | ok a => exact .inr ⟨a, [], es, rfl, .nil, run⟩
  | op o k ih =>
    rcases after_op_iff.mp run with ⟨rfl, rfl⟩ | ⟨reply, tail, rfl, later⟩
    · exact .inl ⟨_, .nil, nofun, rfl⟩
    · rcases ih reply later with ⟨p', inside, unfinished, rfl⟩ | ⟨a, first, rest, rfl, begun, ended⟩
      · exact .inl ⟨p', .cons inside, unfinished, rfl⟩
      · exact .inr ⟨a, _ :: first, rest, rfl, .cons begun, ended⟩

section Scripted

variable {script more : List Op} {p : Prog Reply ε α}

theorem scripted_return (a : α) : Scripted [] (.done (.ok a) : Prog Reply ε α) := by
  intro es q run
  obtain ⟨rfl, _⟩ := after_done_iff.mp run
  exact ⟨List.prefix_refl [], fun _ _ => rfl⟩

theorem scripted_error (e : ε) : Scripted script (.done (.error e) : Prog Reply ε α) := by
  intro es q run
  obtain ⟨rfl, rfl⟩ := after_done_iff.mp run
  refine ⟨List.nil_prefix, ?_⟩
  rintro a ⟨⟩

theorem scripted_op {o : Op} {k : Reply o → Prog Reply ε α}
    (h : ∀ reply, Scripted script (k reply)) : Scripted (o :: script) (.op o k) := by
  intro es q run
  rcases after_op_iff.mp run with ⟨rfl, rfl⟩ | ⟨reply, rest, rfl, later⟩
  · refine ⟨List.nil_prefix, ?_⟩
    rintro a ⟨⟩
  · obtain ⟨inside, all⟩ := h reply rest q later
    refine ⟨(List.prefix_cons_inj o).mpr inside, fun a returned => ?_⟩
    exact congrArg (o :: ·) (all a returned)

/-- What comes after may depend on what the first part returns. -/
theorem Scripted.after_bind {f : α → Prog Reply ε β} {es : List (Event Reply)}
    {q : Prog Reply ε β} (hp : Scripted script p) (run : After (p >>= f) es q) :
    (es.map Event.op <+: script ∧ ∀ b, q ≠ .done (.ok b)) ∨
      ∃ a first rest, es = first ++ rest ∧ Runs p first (.ok a) ∧
        first.map Event.op = script ∧ After (f a) rest q := by
  rcases run.bind_cases with ⟨p', inside, unfinished, rfl⟩ | ⟨a, first, rest, rfl, begun, later⟩
  · refine .inl ⟨(hp es _ inside).1, fun b => ?_⟩
    cases p' with
    | done result =>
      cases result with
      | error e => nofun
      | ok a => exact absurd rfl (unfinished a)
    | op o k => nofun
  · exact .inr ⟨a, first, rest, rfl, begun, (hp first _ begun).2 a rfl, later⟩

theorem Scripted.bind {f : α → Prog Reply ε β} (hp : Scripted script p)
    (hf : ∀ a, Scripted more (f a)) : Scripted (script ++ more) (p >>= f) := by
  intro es q run
  rcases hp.after_bind run with ⟨inside, unfinished⟩ | ⟨a, first, rest, rfl, _, done, later⟩
  · exact ⟨inside.trans (List.prefix_append script more), fun b returned =>
      absurd returned (unfinished b)⟩
  · obtain ⟨inside, all⟩ := hf a rest q later
    rw [List.map_append, done]
    refine ⟨(List.prefix_append_right_inj script).mpr inside, fun b returned => ?_⟩
    rw [all b returned]

end Scripted

/-! ## What a program can return -/

/-- Every value it can return meets `Q`. -/
def Returns (Q : α → Prop) : Prog Reply ε α → Prop
  | .done (.ok a) => Q a
  | .done (.error _) => True
  | .op _ k => ∀ reply, Returns Q (k reply)

theorem Returns.seq {P : α → Prop} {Q : β → Prop} {p : Prog Reply ε α} {f : α → Prog Reply ε β}
    (hp : Returns P p) (hf : ∀ a, P a → Returns Q (f a)) : Returns Q (p >>= f) := by
  induction p with
  | done result =>
    cases result with
    | error e => trivial
    | ok a => exact hf a hp
  | op o k ih => exact fun reply => ih reply (hp reply)

theorem returns_trivial (p : Prog Reply ε α) : Returns (fun _ => True) p := by
  induction p with
  | done result => cases result <;> trivial
  | op o k ih => exact ih

theorem Returns.bind {Q : β → Prop} {p : Prog Reply ε α} {f : α → Prog Reply ε β}
    (h : ∀ a, Returns Q (f a)) : Returns Q (p >>= f) :=
  (returns_trivial p).seq fun a _ => h a

theorem Returns.mono {P Q : α → Prop} {p : Prog Reply ε α} (h : Returns P p)
    (imp : ∀ a, P a → Q a) : Returns Q p := by
  induction p with
  | done result =>
    cases result with
    | error e => trivial
    | ok a => exact imp a h
  | op o k ih => exact fun reply => ih reply (h reply)

/-- What comes next may use what the first part can return. -/
theorem Uses.seq {P : (o : Op) → Prop} {Q : α → Prop} {p : Prog Reply ε α}
    {f : α → Prog Reply ε β} (hp : Uses P p) (returns : Returns Q p)
    (hf : ∀ a, Q a → Uses P (f a)) : Uses P (p >>= f) := by
  induction p with
  | done result =>
    cases result with
    | error e => trivial
    | ok a => exact hf a returns
  | op o k ih => exact ⟨hp.1, fun reply => ih reply (hp.2 reply) (returns reply)⟩

theorem Returns.of_runs {Q : α → Prop} {p : Prog Reply ε α} {es : List (Event Reply)} {a : α}
    (h : Returns Q p) (run : Runs p es (.ok a)) : Q a := by
  induction p generalizing es with
  | done result =>
    obtain ⟨rfl, rfl⟩ := runs_done_iff.mp run
    exact h
  | op o k ih =>
    obtain ⟨reply, rest, rfl, hrest⟩ := runs_op_iff.mp run
    exact ih reply (h reply) hrest

end Prog

/-! ## Programs among others

A contract speaks of a state that the program changes by its operations and
that others may change meanwhile. It says what the others may do, which replies
there are, what an operation with its reply does, and where it is permitted.
-/

structure Contract {Op : Type u} (Reply : Op → Type v) (σ : Type w) where
  others : σ → σ → Prop
  replies : σ → Event Reply → Prop
  effect : σ → Event Reply → σ
  permits : σ → Op → Prop
  others_refl : ∀ s, others s s
  others_trans : ∀ {s t r}, others s t → others t r → others s r

namespace Prog

variable {σ : Type w} (C : Contract Reply σ)

/-- From `s` the program performs each operation where it is permitted and ends
as `post` asks, whatever the others do meanwhile. -/
def Meets (post : Except ε α → σ → Prop) : Prog Reply ε α → σ → Prop
  | .done result, s => ∀ t, C.others s t → post result t
  | .op o k, s => ∀ t, C.others s t → C.permits t o ∧
      ∀ reply, C.replies t ⟨o, reply⟩ → Meets post (k reply) (C.effect t ⟨o, reply⟩)

section Meets

variable {C} {post post' : Except ε α → σ → Prop} {p : Prog Reply ε α} {s t : σ}

/-- What the others do in between is already taken into account. -/
theorem Meets.others (h : Meets C post p s) (step : C.others s t) : Meets C post p t := by
  cases p with
  | done result => exact fun r later => h r (C.others_trans step later)
  | op o k => exact fun r later => h r (C.others_trans step later)

theorem Meets.mono (imp : ∀ result s, post result s → post' result s) (h : Meets C post p s) :
    Meets C post' p s := by
  induction p generalizing s with
  | done result => exact fun t later => imp _ _ (h t later)
  | op o k ih =>
    exact fun t later => ⟨(h t later).1, fun reply ok => ih reply ((h t later).2 reply ok)⟩

/-- What a program must establish for the one sequenced after it. -/
def andThen (post : Except ε β → σ → Prop) (f : α → Prog Reply ε β) : Except ε α → σ → Prop
  | .ok a => Meets C post (f a)
  | .error e => post (.error e)

theorem Meets.bind {post : Except ε β → σ → Prop} {f : α → Prog Reply ε β}
    (h : Meets C (andThen (C := C) post f) p s) : Meets C post (p >>= f) s := by
  induction p generalizing s with
  | done result =>
    cases result with
    | error e => exact h
    | ok a => exact h s (C.others_refl s)
  | op o k ih =>
    exact fun t later => ⟨(h t later).1, fun reply ok => ih reply ((h t later).2 reply ok)⟩

/-- A postcondition on what is returned. After an error nothing is asked. -/
def Leaves (post : α → σ → Prop) : Except ε α → σ → Prop
  | .ok a, s => post a s
  | .error _, _ => True

theorem meets_error {post : α → σ → Prop} (e : ε) :
    Meets C (Leaves post) (.done (.error e)) s := fun _ _ => trivial

theorem Meets.weaken {mid post : α → σ → Prop} (h : Meets C (Leaves mid) p s)
    (imp : ∀ a s, mid a s → post a s) : Meets C (Leaves post) p s := by
  refine h.mono ?_
  rintro (e | a) t mid
  · trivial
  · exact imp a t mid

/-- What is sequenced after a program starts where that has returned. -/
theorem Meets.seq {Q : α → σ → Prop} {post : β → σ → Prop} {f : α → Prog Reply ε β}
    (h : Meets C (Leaves Q) p s) (hf : ∀ a s, Q a s → Meets C (Leaves post) (f a) s) :
    Meets C (Leaves post) (p >>= f) s := by
  refine (h.mono ?_).bind
  rintro (e | a) t first
  · trivial
  · exact hf a t first

theorem Meets.returns {Q : α → Prop} (h : Meets C post p s) (returns : Returns Q p) :
    Meets C (fun result s => post result s ∧ ∀ a, result = .ok a → Q a) p s := by
  induction p generalizing s with
  | done result =>
    refine fun t later => ⟨h t later, ?_⟩
    rintro a rfl
    exact returns
  | op o k ih =>
    exact fun t later =>
      ⟨(h t later).1, fun reply ok => ih reply ((h t later).2 reply ok) (returns reply)⟩

/-- An invariant that all the operations of the program keep. -/
theorem Meets.of_uses {P : Op → Prop} {I : σ → Prop} (uses : Uses P p) (init : I s)
    (stable : ∀ s t, I s → C.others s t → I t)
    (keeps : ∀ s o, I s → P o → C.permits s o ∧
      ∀ reply, C.replies s ⟨o, reply⟩ → I (C.effect s ⟨o, reply⟩)) :
    Meets C (fun _ => I) p s := by
  induction p generalizing s with
  | done result => exact fun t later => stable s t init later
  | op o k ih =>
    intro t later
    obtain ⟨permitted, next⟩ := keeps t o (stable s t init later) uses.1
    exact ⟨permitted, fun reply ok => ih reply (uses.2 reply) (next reply ok)⟩

end Meets

end Prog

end Program
