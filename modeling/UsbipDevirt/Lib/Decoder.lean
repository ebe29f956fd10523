import UsbipDevirt.Lib.Bytes

/-!
# Decoders

A decoder takes what it needs from the front of a byte string, or fails.
`Decodes short p bytes a` says that `p` reads `a` from exactly `bytes`: it
leaves whatever follows alone, and any proper prefix of `bytes` is too short
for it, which is the error `short`. The rules follow the way a decoder is put
together.

`Recognizes short p G` says all there is to say about `p`: it comes to the
outcome of the sentence of `G` in front of its input, and to `short` where the
input ends inside a sentence. Nothing else can be there.
-/

universe u v w

/-- A reader of the front of a byte string. -/
def Decoder (ε : Type u) (α : Type v) : Type (max u v) :=
  List UInt8 → Except ε (α × List UInt8)

namespace Decoder

variable {ε : Type u} {α : Type v} {β : Type w}

def pure (a : α) : Decoder ε α := fun bytes => .ok (a, bytes)

def fail (e : ε) : Decoder ε α := fun _ => .error e

def bind (p : Decoder ε α) (next : α → Decoder ε β) : Decoder ε β := fun bytes =>
  match p bytes with
  | .error e => .error e
  | .ok (a, rest) => next a rest

/-- One value of a fixed-width format. -/
def field (short : ε) (f : Bytes.Format α) : Decoder ε α := fun bytes =>
  if f.width ≤ bytes.length then .ok (f.get (bytes.take f.width), bytes.drop f.width)
  else .error short

/-- The same decoder `n` times, in order. -/
def times (p : Decoder ε α) : ℕ → Decoder ε (List α)
  | 0 => pure []
  | n + 1 => p.bind fun a => (p.times n).bind fun as => pure (a :: as)

theorem bind_ok {p : Decoder ε α} {next : α → Decoder ε β} {bytes rest : List UInt8} {a : α}
    (h : p bytes = .ok (a, rest)) : p.bind next bytes = next a rest := by
  rw [bind, h]

theorem bind_error {p : Decoder ε α} {bytes : List UInt8} {e : ε} (h : p bytes = .error e)
    (next : α → Decoder ε β) : p.bind next bytes = .error e := by
  rw [bind, h]

theorem map_eq_ok {x : Except ε α} {f : α → β} {b : β} :
    x.map f = .ok b ↔ ∃ a, x = .ok a ∧ f a = b := by
  cases x <;> simp [Except.map]

theorem map_eq_error {x : Except ε α} {f : α → β} {e : ε} :
    x.map f = .error e ↔ x = .error e := by
  cases x <;> simp [Except.map]

/-- `p` reads `a` from these bytes, needs all of them and takes no more. -/
structure Decodes (short : ε) (p : Decoder ε α) (bytes : List UInt8) (a : α) : Prop where
  whole : ∀ rest, p (bytes ++ rest) = .ok (a, rest)
  cut : ∀ front, front <+: bytes → front ≠ bytes → p front = .error short

namespace Decodes

variable {short : ε}

theorem pure (a : α) : Decodes short (Decoder.pure a) [] a where
  whole _ := rfl
  cut _ front proper := (proper (List.prefix_nil.mp front)).elim

/-- Two decoders in a row need all that either of them needs. -/
theorem bind_cut {p : Decoder ε α} {next : α → Decoder ε β} {xs ys front : List UInt8} {a : α}
    (first : Decodes short p xs a)
    (second : ∀ front, front <+: ys → front ≠ ys → next a front = .error short)
    (isPrefix : front <+: xs ++ ys) (proper : front ≠ xs ++ ys) :
    p.bind next front = .error short := by
  rcases List.prefix_or_prefix_of_prefix isPrefix (List.prefix_append xs ys) with
    within | ⟨more, rfl⟩
  · by_cases all : front = xs
    · subst all
      have empty : p.bind next front = next a [] := bind_ok (by simpa using first.whole [])
      rw [empty]
      refine second [] (List.nil_prefix ..) ?_
      rintro rfl
      exact proper (List.append_nil _).symm
    · exact bind_error (first.cut front within all) next
  · rw [bind_ok (first.whole more)]
    refine second more ((List.prefix_append_right_inj xs).mp isPrefix) ?_
    rintro rfl
    exact proper rfl

theorem bind {p : Decoder ε α} {next : α → Decoder ε β} {xs ys : List UInt8} {a : α} {b : β}
    (first : Decodes short p xs a) (second : Decodes short (next a) ys b) :
    Decodes short (p.bind next) (xs ++ ys) b where
  whole rest := by rw [List.append_assoc, bind_ok (first.whole _), second.whole]
  cut _ isPrefix proper := first.bind_cut second.cut isPrefix proper

/-- What is computed from the value costs no bytes. -/
theorem map {p : Decoder ε α} {bytes : List UInt8} {a : α} (h : Decodes short p bytes a)
    (f : α → β) : Decodes short (p.bind fun a => Decoder.pure (f a)) bytes (f a) where
  whole rest := by rw [bind_ok (h.whole rest), Decoder.pure]
  cut front isPrefix proper := bind_error (h.cut front isPrefix proper) _

theorem field (f : Bytes.Format α) (a : α) :
    Decodes short (Decoder.field short f) (f.put a) a where
  whole rest := by
    rw [Decoder.field, if_pos (by simp), f.get_take_put, List.drop_left' (f.length_put a)]
  cut front isPrefix proper := by
    refine if_neg (Nat.not_le.mpr ?_)
    rw [← f.length_put a]
    exact Nat.lt_of_le_of_ne isPrefix.length_le fun same => proper (isPrefix.eq_of_length same)

/-- A count-driven loop reads the values one after the other. -/
theorem times {p : Decoder ε α} {γ : Type*} {put : γ → List UInt8} {value : γ → α}
    {items : List γ} (each : ∀ x ∈ items, Decodes short p (put x) (value x)) :
    Decodes short (p.times items.length) (items.flatMap put) (items.map value) := by
  induction items with
  | nil => exact .pure []
  | cons x items ih =>
    obtain ⟨head, tail⟩ := List.forall_mem_cons.mp each
    exact head.bind ((ih tail).map (value x :: ·))

end Decodes

/-- `p` gives up on these bytes with `e`, needs all of them and looks at no more. -/
structure Refuses (short : ε) (p : Decoder ε α) (bytes : List UInt8) (e : ε) : Prop where
  whole : ∀ rest, p (bytes ++ rest) = .error e
  cut : ∀ front, front <+: bytes → front ≠ bytes → p front = .error short

namespace Refuses

variable {short e : ε}

theorem bind {p : Decoder ε α} {bytes : List UInt8} (h : Refuses short p bytes e)
    (next : α → Decoder ε β) : Refuses short (p.bind next) bytes e where
  whole rest := bind_error (h.whole rest) next
  cut front isPrefix proper := bind_error (h.cut front isPrefix proper) next

theorem after {p : Decoder ε α} {next : α → Decoder ε β} {xs ys : List UInt8} {a : α}
    (first : Decodes short p xs a) (second : Refuses short (next a) ys e) :
    Refuses short (p.bind next) (xs ++ ys) e where
  whole rest := by rw [List.append_assoc, bind_ok (first.whole _), second.whole]
  cut _ isPrefix proper := first.bind_cut second.cut isPrefix proper

end Refuses

/-! ## Languages -/

/-- Byte strings, each with what it comes to. -/
def Language (ε : Type u) (α : Type v) : Type (max u v) := Except ε α → List UInt8 → Prop

namespace Language

variable {γ : Type*}

/-- The encodings of the members of a type. -/
def values (value : γ → α) (put : γ → List UInt8) : Language ε α :=
  fun r bytes => ∃ c, r = .ok (value c) ∧ bytes = put c

/-- `n` of them, one after the other. -/
def repeated (n : ℕ) (value : γ → α) (put : γ → List UInt8) : Language ε (List α) :=
  fun r bytes => ∃ cs : List γ, cs.length = n ∧ r = .ok (cs.map value) ∧ bytes = cs.flatMap put

/-- Refused without a look at the input. -/
def refusal (e : ε) : Language ε α := fun r bytes => r = .error e ∧ bytes = []

def map (f : α → β) (G : Language ε α) : Language ε β :=
  fun r bytes => ∃ r', G r' bytes ∧ r = r'.map f

theorem map_values {value : γ → α} {put : γ → List UInt8} {f : α → β} {r : Except ε β}
    {bytes : List UInt8} : (values value put : Language ε α).map f r bytes ↔
      values (fun c => f (value c)) put r bytes := by
  constructor
  · rintro ⟨_, ⟨c, rfl, rfl⟩, rfl⟩
    exact ⟨c, rfl, rfl⟩
  · rintro ⟨c, rfl, rfl⟩
    exact ⟨_, ⟨c, rfl, rfl⟩, rfl⟩

/-- A sentence of `G`, followed by one of those that its value asks for. -/
inductive Then (G : Language ε α) (H : α → Language ε β) : Language ε β
  | refused {e : ε} {xs : List UInt8} : G (.error e) xs → Then G H (.error e) xs
  | next {a : α} {r : Except ε β} {xs ys : List UInt8} : G (.ok a) xs → H a r ys →
      Then G H r (xs ++ ys)

end Language

open Decoder.Language

/-- What `p` makes of any input. -/
structure Recognizes (short : ε) (p : Decoder ε α) (G : Language ε α) : Prop where
  accepts : ∀ {a bytes}, G (.ok a) bytes → Decodes short p bytes a
  refuses : ∀ {e bytes}, G (.error e) bytes → Refuses short p bytes e
  /-- Every input starts with a sentence or is the start of one. -/
  covers : ∀ input, ∃ r bytes, G r bytes ∧ (bytes <+: input ∨ input <+: bytes)

namespace Recognizes

variable {short : ε} {p : Decoder ε α} {G : Language ε α}

theorem whole (h : Recognizes short p G) {r : Except ε α} {bytes : List UInt8}
    (sentence : G r bytes) (rest : List UInt8) : p (bytes ++ rest) = r.map (·, rest) := by
  cases r with
  | error e => exact (h.refuses sentence).whole rest
  | ok a => exact (h.accepts sentence).whole rest

theorem cut (h : Recognizes short p G) {r : Except ε α} {bytes front : List UInt8}
    (sentence : G r bytes) (isPrefix : front <+: bytes) (proper : front ≠ bytes) :
    p front = .error short := by
  cases r with
  | error e => exact (h.refuses sentence).cut front isPrefix proper
  | ok a => exact (h.accepts sentence).cut front isPrefix proper

/-- A whole sentence is in front of the input, or the input ends inside one. -/
theorem reads (h : Recognizes short p G) (input : List UInt8) :
    (∃ r bytes rest, G r bytes ∧ input = bytes ++ rest) ∨
      ∃ r bytes, G r bytes ∧ input <+: bytes ∧ input ≠ bytes := by
  obtain ⟨r, bytes, sentence, ⟨rest, rfl⟩ | within⟩ := h.covers input
  · exact .inl ⟨r, bytes, rest, sentence, rfl⟩
  · by_cases all : input = bytes
    · exact .inl ⟨r, bytes, [], sentence, by rw [all, List.append_nil]⟩
    · exact .inr ⟨r, bytes, sentence, within, all⟩

theorem ok_iff (h : Recognizes short p G) {input rest : List UInt8} {a : α} :
    p input = .ok (a, rest) ↔ ∃ bytes, G (.ok a) bytes ∧ input = bytes ++ rest := by
  constructor
  · intro accepted
    rcases h.reads input with ⟨r, bytes, _, sentence, rfl⟩ | ⟨r, bytes, sentence, within, proper⟩
    · rw [h.whole sentence] at accepted
      cases r with
      | error e => cases accepted
      | ok a' =>
        cases accepted
        exact ⟨bytes, sentence, rfl⟩
    · rw [h.cut sentence within proper] at accepted
      cases accepted
  · rintro ⟨bytes, sentence, rfl⟩
    exact h.whole sentence rest

theorem error_iff (h : Recognizes short p G) {input : List UInt8} {e : ε} :
    p input = .error e ↔ (∃ bytes, G (.error e) bytes ∧ bytes <+: input) ∨
      e = short ∧ ∃ r bytes, G r bytes ∧ input <+: bytes ∧ input ≠ bytes := by
  constructor
  · intro refused
    rcases h.reads input with ⟨r, bytes, rest, sentence, rfl⟩ | ⟨r, bytes, sentence, within, proper⟩
    · rw [h.whole sentence] at refused
      cases r with
      | error e' =>
        cases refused
        exact .inl ⟨bytes, sentence, List.prefix_append bytes rest⟩
      | ok a => cases refused
    · rw [h.cut sentence within proper] at refused
      cases refused
      exact .inr ⟨rfl, r, bytes, sentence, within, proper⟩
  · rintro (⟨bytes, sentence, rest, rfl⟩ | ⟨rfl, r, bytes, sentence, within, proper⟩)
    · exact h.whole sentence rest
    · exact h.cut sentence within proper

/-- An accepted sentence does not start another one, nor does another one start it. -/
theorem unambiguous (h : Recognizes short p G) {a : α} {r : Except ε α} {xs ys : List UInt8}
    (accepted : G (.ok a) xs) (other : G r ys) (comparable : xs <+: ys ∨ ys <+: xs) :
    r = .ok a ∧ ys = xs := by
  have same {rest : List UInt8} (hxs : xs = ys ++ rest) : r = .ok a ∧ ys = xs := by
    have value := h.whole accepted []
    rw [List.append_nil, hxs, h.whole other rest] at value
    cases r with
    | error e => cases value
    | ok a' =>
      cases value
      exact ⟨rfl, by rw [hxs, List.append_nil]⟩
  rcases comparable with within | ⟨rest, hxs⟩
  · by_cases all : xs = ys
    · exact same (by rw [all, List.append_nil])
    · have short' := h.cut other within all
      have value := h.whole accepted []
      rw [List.append_nil, short'] at value
      cases value
  · exact same hxs.symm

theorem congr {H : Language ε α} (h : Recognizes short p G)
    (same : ∀ r bytes, G r bytes ↔ H r bytes) : Recognizes short p H where
  accepts sentence := h.accepts ((same _ _).mpr sentence)
  refuses sentence := h.refuses ((same _ _).mpr sentence)
  covers input := by
    obtain ⟨r, bytes, sentence, comparable⟩ := h.covers input
    exact ⟨r, bytes, (same r bytes).mp sentence, comparable⟩

theorem fail (e : ε) : Recognizes short (Decoder.fail e : Decoder ε α) (refusal e) where
  accepts := by rintro a bytes ⟨⟨⟩, _⟩
  refuses := by
    rintro _ bytes ⟨⟨⟩, rfl⟩
    exact ⟨fun _ => rfl, fun _ isPrefix proper => (proper (List.prefix_nil.mp isPrefix)).elim⟩
  covers input := ⟨.error e, [], ⟨rfl, rfl⟩, .inl (List.nil_prefix ..)⟩

/-- Any bytes will do for a field, if they are enough. -/
theorem field (f : Bytes.Format α) :
    Recognizes short (Decoder.field short f) (values id f.put) where
  accepts := by
    rintro _ _ ⟨a, ⟨⟩, rfl⟩
    exact .field f a
  refuses := by rintro e bytes ⟨a, ⟨⟩, _⟩
  covers input := by
    by_cases enough : f.width ≤ input.length
    · have whole : f.put (f.get (input.take f.width)) = input.take f.width :=
        f.put_get _ (by rw [List.length_take, Nat.min_eq_left enough])
      refine ⟨_, _, ⟨f.get (input.take f.width), rfl, rfl⟩, .inl ?_⟩
      rw [whole]
      exact List.take_prefix f.width input
    · let filled := input ++ List.replicate (f.width - input.length) 0
      have whole : f.put (f.get filled) = filled := by
        apply f.put_get
        rw [List.length_append, List.length_replicate]
        omega
      refine ⟨_, _, ⟨f.get filled, rfl, rfl⟩, .inr ?_⟩
      rw [whole]
      exact List.prefix_append input _

theorem map (h : Recognizes short p G) (f : α → β) :
    Recognizes short (p.bind fun a => Decoder.pure (f a)) (G.map f) where
  accepts := by
    rintro _ bytes ⟨r, sentence, same⟩
    cases r with
    | error e => cases same
    | ok a =>
      cases same
      exact (h.accepts sentence).map f
  refuses := by
    rintro _ bytes ⟨r, sentence, same⟩
    cases r with
    | error e =>
      cases same
      exact (h.refuses sentence).bind _
    | ok a => cases same
  covers input := by
    obtain ⟨r, bytes, sentence, comparable⟩ := h.covers input
    exact ⟨r.map f, bytes, ⟨r, sentence, rfl⟩, comparable⟩

theorem bind {next : α → Decoder ε β} {H : α → Language ε β} (first : Recognizes short p G)
    (second : ∀ a, Recognizes short (next a) (H a)) :
    Recognizes short (p.bind next) (G.Then H) where
  accepts := by
    intro b bytes sentence
    cases sentence with
    | @next a _ xs ys head tail => exact (first.accepts head).bind ((second a).accepts tail)
  refuses := by
    intro e bytes sentence
    cases sentence with
    | refused head => exact (first.refuses head).bind next
    | @next a _ xs ys head tail => exact .after (first.accepts head) ((second a).refuses tail)
  covers input := by
    obtain ⟨r, xs, head, comparable⟩ := first.covers input
    cases r with
    | error e => exact ⟨_, xs, .refused head, comparable⟩
    | ok a =>
      rcases comparable with ⟨more, rfl⟩ | within
      · obtain ⟨r, ys, tail, later⟩ := (second a).covers more
        refine ⟨r, xs ++ ys, .next head tail, ?_⟩
        simpa only [List.prefix_append_right_inj] using later
      · obtain ⟨r, ys, tail, _⟩ := (second a).covers []
        exact ⟨r, xs ++ ys, .next head tail, .inr (within.trans (List.prefix_append xs ys))⟩

theorem times {γ : Type*} {value : γ → α} {put : γ → List UInt8}
    (h : Recognizes short p (values value put)) (n : ℕ) :
    Recognizes short (p.times n) (repeated n value put) where
  accepts := by
    rintro _ _ ⟨cs, rfl, ⟨⟩, rfl⟩
    exact .times fun c _ => h.accepts ⟨c, rfl, rfl⟩
  refuses := by rintro e bytes ⟨cs, _, ⟨⟩, _⟩
  covers input := by
    induction n generalizing input with
    | zero => exact ⟨_, _, ⟨[], rfl, rfl, rfl⟩, .inl (List.nil_prefix ..)⟩
    | succ n ih =>
      obtain ⟨_, _, ⟨c, rfl, rfl⟩, comparable⟩ := h.covers input
      rcases comparable with ⟨more, rfl⟩ | within
      · obtain ⟨_, _, ⟨cs, length, rfl, rfl⟩, later⟩ := ih more
        refine ⟨_, _, ⟨c :: cs, congrArg (· + 1) length, rfl, rfl⟩, ?_⟩
        simpa only [List.flatMap_cons, List.prefix_append_right_inj] using later
      · obtain ⟨_, _, ⟨cs, length, rfl, rfl⟩, _⟩ := ih []
        refine ⟨_, _, ⟨c :: cs, congrArg (· + 1) length, rfl, rfl⟩, .inr ?_⟩
        exact within.trans (List.prefix_append (put c) _)

end Recognizes

end Decoder
