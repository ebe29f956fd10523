import Mathlib.Data.Nat.Digits.Defs
import Mathlib.Data.Vector.Basic
import Mathlib.Logic.Equiv.Prod

/-!
# Fixed-width byte formats

A `Format α` is a bijection between `α` and the byte strings of one fixed
width. Every value has exactly one encoding and every string of the right
width decodes, so a record made of such fields has no padding and no invalid
bit pattern. Multi-byte integers come in both byte orders.
-/

namespace Bytes

universe u v

/-! ## Positional numerals -/

/-- The `w` low-order base-256 digits of `n`, least significant first. -/
def ofNatLE : Nat → Nat → List UInt8
  | 0, _ => []
  | w + 1, n => UInt8.ofNat n :: ofNatLE w (n / 256)

def toNatLE (bs : List UInt8) : Nat := Nat.ofDigits 256 (bs.map UInt8.toNat)

@[simp] theorem length_ofNatLE (w n : Nat) : (ofNatLE w n).length = w := by
  induction w generalizing n with
  | zero => rfl
  | succ w ih => simp [ofNatLE, ih]

theorem toNatLE_ofNatLE (w n : Nat) : toNatLE (ofNatLE w n) = n % 256 ^ w := by
  induction w generalizing n with
  | zero => simp [ofNatLE, toNatLE, Nat.mod_one]
  | succ w ih =>
    have head : (UInt8.ofNat n).toNat = n % 256 := UInt8.toNat_ofNat'
    have tail : Nat.ofDigits 256 ((ofNatLE w (n / 256)).map UInt8.toNat) =
        n / 256 % 256 ^ w := ih (n / 256)
    rw [toNatLE, ofNatLE, List.map_cons, Nat.ofDigits_cons, tail, head, Nat.pow_succ',
      Nat.mod_mul]

theorem ofNatLE_toNatLE (bs : List UInt8) : ofNatLE bs.length (toNatLE bs) = bs := by
  induction bs with
  | nil => rfl
  | cons b bs ih =>
    have hb := b.toNat_lt
    have value : toNatLE (b :: bs) = b.toNat + 256 * toNatLE bs := by
      simp [toNatLE, Nat.ofDigits_cons]
    have low : UInt8.ofNat (toNatLE (b :: bs)) = b := by
      apply UInt8.toNat_inj.mp
      rw [UInt8.toNat_ofNat', value]
      omega
    have high : toNatLE (b :: bs) / 256 = toNatLE bs := by omega
    rw [List.length_cons, ofNatLE, low, high, ih]

theorem toNatLE_lt (bs : List UInt8) : toNatLE bs < 256 ^ bs.length := by
  have h := Nat.ofDigits_lt_base_pow_length (b := 256) (l := bs.map UInt8.toNat) (by decide)
    (by
      intro x hx
      obtain ⟨b, _, rfl⟩ := List.mem_map.mp hx
      exact b.toNat_lt)
  simpa [toNatLE] using h

/-! ## Formats -/

structure Format (α : Type u) where
  width : Nat
  put : α → List UInt8
  get : List UInt8 → α
  length_put : ∀ a, (put a).length = width
  get_put : ∀ a, get (put a) = a
  put_get : ∀ bs, bs.length = width → put (get bs) = bs

namespace Format

variable {α : Type u} {β : Type v}

attribute [simp] length_put get_put

/-- The first field of a longer string is read back whatever follows it. -/
theorem get_take_put (f : Format α) (a : α) (rest : List UInt8) :
    f.get ((f.put a ++ rest).take f.width) = a := by
  rw [List.take_left' (f.length_put a), f.get_put]

/-- Two formats side by side. -/
def pair (f : Format α) (g : Format β) : Format (α × β) where
  width := f.width + g.width
  put p := f.put p.1 ++ g.put p.2
  get bs := (f.get (bs.take f.width), g.get (bs.drop f.width))
  length_put p := by simp
  get_put p := by
    rw [List.take_left' (f.length_put p.1), List.drop_left' (f.length_put p.1)]
    simp
  put_get bs hbs := by
    rw [f.put_get _ (by simp [hbs]), g.put_get _ (by simp [hbs]), List.take_append_drop]

/-- The same bytes read as another type. -/
def map (f : Format α) (e : α ≃ β) : Format β where
  width := f.width
  put b := f.put (e.symm b)
  get bs := e (f.get bs)
  length_put b := f.length_put _
  get_put b := by simp
  put_get bs hbs := by simp [f.put_get bs hbs]

end Format

/-- One byte. -/
def u8 : Format UInt8 where
  width := 1
  put b := [b]
  get bs := bs.headD 0
  length_put _ := rfl
  get_put _ := rfl
  put_get bs hbs := by
    obtain ⟨b, rfl⟩ := List.length_eq_one_iff.mp hbs
    rfl

/-- Little-endian words of `w` bytes, for a type that is the numbers below `256 ^ w`. -/
def word {α : Type u} (w : Nat) (toNat : α → Nat) (ofNat : Nat → α)
    (bound : ∀ a, toNat a < 256 ^ w) (ofNat_toNat : ∀ a, ofNat (toNat a) = a)
    (toNat_ofNat : ∀ n, n < 256 ^ w → toNat (ofNat n) = n) : Format α where
  width := w
  put a := ofNatLE w (toNat a)
  get bs := ofNat (toNatLE bs)
  length_put _ := length_ofNatLE ..
  get_put a := by rw [toNatLE_ofNatLE, Nat.mod_eq_of_lt (bound a), ofNat_toNat]
  put_get bs hbs := by
    have h := toNatLE_lt bs
    rw [hbs] at h
    rw [toNat_ofNat _ h]
    simpa only [hbs] using ofNatLE_toNatLE bs

/-- Little-endian 16-bit integers. -/
def u16le : Format UInt16 :=
  word 2 UInt16.toNat UInt16.ofNat (fun x => x.toNat_lt) (fun _ => UInt16.ofNat_toNat)
    (fun _ h => UInt16.toNat_ofNat_of_lt' h)

/-- Little-endian 32-bit integers. -/
def u32le : Format UInt32 :=
  word 4 UInt32.toNat UInt32.ofNat (fun x => x.toNat_lt) (fun _ => UInt32.ofNat_toNat)
    (fun _ h => UInt32.toNat_ofNat_of_lt' h)

namespace Format

/-- The same format with its bytes in the opposite order. -/
def reverse {α : Type u} (f : Format α) : Format α where
  width := f.width
  put a := (f.put a).reverse
  get bs := f.get bs.reverse
  length_put a := by simp
  get_put a := by simp
  put_get bs hbs := by rw [f.put_get _ (by simp [hbs]), List.reverse_reverse]

end Format

/-- Big-endian 16-bit integers. -/
def u16be : Format UInt16 := u16le.reverse

/-- Big-endian 32-bit integers. -/
def u32be : Format UInt32 := u32le.reverse

/-- Big-endian two's complement 32-bit integers. -/
def i32be : Format Int32 :=
  u32be.map ⟨UInt32.toInt32, Int32.toUInt32, fun _ => rfl, fun _ => rfl⟩

/-- `n` bytes taken as they are. -/
def raw (n : Nat) : Format (List.Vector UInt8 n) where
  width := n
  put v := v.toList
  get bs := ⟨(bs ++ List.replicate n 0).take n, by simp⟩
  length_put v := v.toList_length
  get_put v := by
    apply List.Vector.toList_injective
    exact List.take_left' v.toList_length
  put_get _ hbs := by exact List.take_left' hbs

end Bytes
