import UsbipDevirt.Descriptors

/-!
# The grammar of a configuration descriptor

A string of bytes is a chain of descriptors, each as long as its first byte
says, and a tail in front of which no descriptor stands. The decomposition
exists, it is unique, and `parse_endpoint_descriptors` returns the endpoint
descriptors of the chain. Data that is cut short loses endpoints at the end only.

The function is taken here with its offsets: an index that is out of range is
`none`, and so is a loop that does not come to its end.
-/

namespace UsbipDevirt

open Bytes

/-! ## The loop over offsets -/

/-- A byte that is read only if the descriptor has it. -/
def optionalByte (configData : List UInt8) (present : Bool) (i : ℕ) : Option UInt8 :=
  if present then configData[i]? else some 0

/-- The fields that the loop pushes for the descriptor at `offset`. -/
def endpointAtOffset (configData : List UInt8) (offset : ℕ) (bLength : UInt8)
    (bDescriptorType : UInt8) : Option UsbEndpointDescriptor := do
  return {
    bLength := ← configData[offset]?
    bDescriptorType := bDescriptorType
    bEndpointAddress := ← configData[offset + 2]?
    bmAttributes := ← configData[offset + 3]?
    wMaxPacketSize := u16le.get [← configData[offset + 4]?, ← configData[offset + 5]?]
    bInterval := ← configData[offset + 6]?
    bRefresh := ← optionalByte configData (7 < bLength.toNat) (offset + 7)
    bSynchAddress := ← optionalByte configData (8 < bLength.toNat) (offset + 8) }

/-- The `while` loop from `offset` on. -/
def scanEndpoints (configData : List UInt8) :
    ℕ → ℕ → List UsbEndpointDescriptor → Option (List UsbEndpointDescriptor)
  | 0, _, _ => none
  | fuel + 1, offset, endpoints =>
    if offset + 1 < configData.length then do
      let bLength ← configData[offset]?
      if bLength.toNat < 2 ∨ configData.length < offset + bLength.toNat then some endpoints
      else do
        let bDescriptorType ← configData[offset + 1]?
        if bDescriptorType = usbDtEndpoint ∧ 7 ≤ bLength.toNat then do
          let endpoint ← endpointAtOffset configData offset bLength bDescriptorType
          scanEndpoints configData fuel (offset + bLength.toNat) (endpoints ++ [endpoint])
        else scanEndpoints configData fuel (offset + bLength.toNat) endpoints
    else some endpoints

/-! ## The grammar -/

/-- At least two bytes, and the first is their number. -/
def IsDescriptor (d : List UInt8) : Prop :=
  2 ≤ d.length ∧ ∃ first rest, d = first :: rest ∧ first.toNat = d.length

/-- No descriptor stands at the front. -/
def IsTail (t : List UInt8) : Prop :=
  t.length < 2 ∨ ∃ first rest, t = first :: rest ∧ (first.toNat < 2 ∨ t.length < first.toNat)

structure Decomposes (b : List UInt8) (ds : List (List UInt8)) (t : List UInt8) : Prop where
  bytes : b = ds.flatten ++ t
  descriptors : ∀ d ∈ ds, IsDescriptor d
  tail : IsTail t

/-- The endpoint that a descriptor describes, if it is an endpoint descriptor. -/
def endpointOf : List UInt8 → Option UsbEndpointDescriptor
  | bLength :: bDescriptorType :: bEndpointAddress :: bmAttributes :: lo :: hi :: bInterval ::
      rest =>
    if bDescriptorType = usbDtEndpoint then
      some {
        bLength, bDescriptorType, bEndpointAddress, bmAttributes, bInterval
        wMaxPacketSize := UInt16.ofNat (lo.toNat + 256 * hi.toNat)
        bRefresh := rest.getD 0 0
        bSynchAddress := rest.getD 1 0 }
    else none
  | _ => none

theorem IsDescriptor.shape {d : List UInt8} (h : IsDescriptor d) :
    ∃ bLength bDescriptorType rest, d = bLength :: bDescriptorType :: rest ∧
      bLength.toNat = rest.length + 2 := by
  obtain ⟨long, bLength, rest, rfl, length⟩ := h
  cases rest with
  | nil => simp at long
  | cons bDescriptorType rest => exact ⟨_, _, _, rfl, by simpa using length⟩

/-- What the two length checks find at the front of a string decides which it is. -/
theorem isTail_of_descriptor_append {d rest : List UInt8} (h : IsDescriptor d) :
    ¬ IsTail (d ++ rest) := by
  obtain ⟨bLength, bDescriptorType, tail, rfl, length⟩ := h.shape
  rintro (short | ⟨first, others, same, short | short⟩)
  · simp only [List.cons_append, List.length_cons] at short
    omega
  · obtain ⟨rfl, _⟩ := List.cons.inj same
    omega
  · obtain ⟨rfl, _⟩ := List.cons.inj same
    simp only [List.cons_append, List.length_cons, List.length_append] at short
    omega

theorem isTail_or_descriptor (b : List UInt8) :
    IsTail b ∨ ∃ d rest, IsDescriptor d ∧ b = d ++ rest := by
  match b with
  | [] | [_] => exact .inl (.inl (by simp))
  | bLength :: bDescriptorType :: rest =>
    by_cases short : bLength.toNat < 2
    · exact .inl (.inr ⟨_, _, rfl, .inl short⟩)
    · by_cases long : (bLength :: bDescriptorType :: rest).length < bLength.toNat
      · exact .inl (.inr ⟨_, _, rfl, .inr long⟩)
      · right
        refine ⟨(bLength :: bDescriptorType :: rest).take bLength.toNat,
          (bLength :: bDescriptorType :: rest).drop bLength.toNat, ?_,
          (List.take_append_drop ..).symm⟩
        have length := List.length_take_of_le (Nat.le_of_not_lt long)
        refine ⟨by omega, bLength, (bDescriptorType :: rest).take (bLength.toNat - 1), ?_,
          length.symm⟩
        rw [← List.take_succ_cons]
        congr 1
        omega

theorem decomposes_exists (b : List UInt8) : ∃ ds t, Decomposes b ds t := by
  induction hn : b.length using Nat.strong_induction_on generalizing b with
  | _ n ih =>
    rcases isTail_or_descriptor b with tail | ⟨d, rest, hd, rfl⟩
    · exact ⟨[], b, rfl, by simp, tail⟩
    · have shorter : rest.length < n := by
        have := hd.1
        rw [List.length_append] at hn
        omega
      obtain ⟨ds, t, h⟩ := ih _ shorter rest rfl
      refine ⟨d :: ds, t, by rw [h.bytes]; simp, ?_, h.tail⟩
      exact List.forall_mem_cons.mpr ⟨hd, h.descriptors⟩

theorem Decomposes.unique {b : List UInt8} {ds ds' : List (List UInt8)} {t t' : List UInt8}
    (h : Decomposes b ds t) (h' : Decomposes b ds' t') : ds = ds' ∧ t = t' := by
  induction ds generalizing b ds' with
  | nil =>
    cases ds' with
    | nil => exact ⟨rfl, h.bytes.symm.trans h'.bytes⟩
    | cons d ds' =>
      have tail := h.tail
      have same : t = d ++ (ds'.flatten ++ t') := by
        simpa using h.bytes.symm.trans h'.bytes
      exact absurd (same ▸ tail) (isTail_of_descriptor_append (h'.descriptors d (by simp)))
  | cons d ds ih =>
    have hd := h.descriptors d (by simp)
    cases ds' with
    | nil =>
      have same : t' = d ++ (ds.flatten ++ t) := by
        simpa using h'.bytes.symm.trans h.bytes
      exact absurd (same ▸ h'.tail) (isTail_of_descriptor_append hd)
    | cons d' ds' =>
      have hd' := h'.descriptors d' (by simp)
      have same : d ++ (ds.flatten ++ t) = d' ++ (ds'.flatten ++ t') := by
        simpa using h.bytes.symm.trans h'.bytes
      -- both are as long as the byte they start with says
      have length : d.length = d'.length := by
        obtain ⟨_, first, rest, rfl, hlen⟩ := hd
        obtain ⟨_, first', rest', rfl, hlen'⟩ := hd'
        obtain ⟨rfl, _⟩ := List.cons.inj same
        omega
      obtain ⟨rfl, rest⟩ := List.append_inj same length
      obtain ⟨rfl, rfl⟩ := @ih (ds.flatten ++ t) ds'
        ⟨rfl, fun e he => h.descriptors e (List.mem_cons_of_mem _ he), h.tail⟩
        ⟨rest, fun e he => h'.descriptors e (List.mem_cons_of_mem _ he), h'.tail⟩
      exact ⟨rfl, rfl⟩

/-! ## The loop reads the grammar -/

/-- Indexing from the offset of a descriptor. -/
theorem getElem?_inside (before d after : List UInt8) {i : ℕ} (inside : i < d.length) :
    (before ++ (d ++ after))[before.length + i]? = d[i]? := by
  rw [List.getElem?_append_right (Nat.le_add_right ..), Nat.add_sub_cancel_left,
    List.getElem?_append_left inside]

theorem u16le_get_pair (lo hi : UInt8) :
    u16le.get [lo, hi] = UInt16.ofNat (lo.toNat + 256 * hi.toNat) := by
  simp [u16le, word, toNatLE, Nat.ofDigits_cons]

theorem endpointAtOffset_eq (before : List UInt8) {d : List UInt8} (after : List UInt8)
    {bLength bDescriptorType : UInt8} {rest : List UInt8}
    (shape : d = bLength :: bDescriptorType :: rest)
    (length : bLength.toNat = rest.length + 2) (long : 7 ≤ bLength.toNat)
    (type : bDescriptorType = usbDtEndpoint) :
    endpointAtOffset (before ++ (d ++ after)) before.length bLength bDescriptorType =
      endpointOf d := by
  obtain ⟨bEndpointAddress, bmAttributes, lo, hi, bInterval, more, rfl⟩ :
      ∃ a b c d e more, rest = a :: b :: c :: d :: e :: more := by
    match rest with
    | a :: b :: c :: d :: e :: more => exact ⟨_, _, _, _, _, _, rfl⟩
    | [] | [_] | [_, _] | [_, _, _] | [_, _, _, _] => simp at length; omega
  have total : d.length = more.length + 7 := by rw [shape]; rfl
  have length : bLength.toNat = more.length + 7 := length
  have index {i : ℕ} (inside : i < d.length) := getElem?_inside before d after inside
  have first : (before ++ (d ++ after))[before.length]? = some bLength := by
    rw [← Nat.add_zero before.length, index (by omega), shape]
    rfl
  have optional (i : ℕ) : optionalByte (before ++ (d ++ after)) (7 + i < bLength.toNat)
      (before.length + (7 + i)) = some (more.getD i 0) := by
    by_cases inside : i < more.length
    · have present : 7 + i < bLength.toNat := by omega
      rw [optionalByte, if_pos (decide_eq_true present), index (by omega), shape]
      simp [Nat.add_comm 7 i, List.getElem?_eq_getElem inside]
    · have absent : ¬ 7 + i < bLength.toNat := by omega
      rw [optionalByte, if_neg (by simpa using absent)]
      simp [List.getElem?_eq_none (Nat.le_of_not_lt inside)]
  have refresh := optional 0
  have synch := optional 1
  have at2 := index (i := 2) (by omega)
  have at3 := index (i := 3) (by omega)
  have at4 := index (i := 4) (by omega)
  have at5 := index (i := 5) (by omega)
  have at6 := index (i := 6) (by omega)
  simp only [Nat.add_zero, Nat.reduceAdd] at refresh synch
  simp only [endpointAtOffset, first, refresh, synch, at2, at3, at4, at5, at6]
  simp [shape, endpointOf, type, u16le_get_pair]

theorem endpointOf_eq_none {bLength bDescriptorType : UInt8} {rest : List UInt8}
    (other : ¬ (bDescriptorType = usbDtEndpoint ∧ 7 ≤ rest.length + 2)) :
    endpointOf (bLength :: bDescriptorType :: rest) = none := by
  unfold endpointOf
  split
  · next same =>
    obtain ⟨rfl, rfl, rfl⟩ : _ ∧ _ ∧ _ := by simpa using same
    rw [if_neg fun type => other ⟨type, by simp⟩]
  · rfl

theorem endpointOf_eq_some {bLength bDescriptorType : UInt8} {rest : List UInt8}
    (type : bDescriptorType = usbDtEndpoint) (long : 7 ≤ rest.length + 2) :
    ∃ endpoint, endpointOf (bLength :: bDescriptorType :: rest) = some endpoint := by
  match rest with
  | _ :: _ :: _ :: _ :: _ :: _ => exact ⟨_, if_pos type⟩
  | [] | [_] | [_, _] | [_, _, _] | [_, _, _, _] => simp at long

/-- At a tail the loop is over. -/
theorem scanEndpoints_tail {before t : List UInt8} (tail : IsTail t) (fuel : ℕ)
    (endpoints : List UsbEndpointDescriptor) :
    scanEndpoints (before ++ t) (fuel + 1) before.length endpoints = some endpoints := by
  have index : (before ++ t)[before.length]? = t[0]? := by
    rw [List.getElem?_append_right (Nat.le_refl _), Nat.sub_self]
  rw [scanEndpoints]
  by_cases more : before.length + 1 < (before ++ t).length
  · rw [if_pos more]
    rw [List.length_append] at more
    rcases tail with short | ⟨first, rest, rfl, out⟩
    · omega
    · have beyond : first.toNat < 2 ∨
          (before ++ first :: rest).length < before.length + first.toNat := by
        rw [List.length_append]
        omega
      simp only [index, List.getElem?_cons_zero, Option.bind_eq_bind, Option.bind_some,
        if_pos beyond]
  · rw [if_neg more]

/-- From the offset where a decomposition begins, the loop collects its endpoints. -/
theorem scanEndpoints_eq (before : List UInt8) {b : List UInt8} {ds : List (List UInt8)}
    {t : List UInt8} (h : Decomposes b ds t) {fuel : ℕ} (enough : ds.length < fuel)
    (endpoints : List UsbEndpointDescriptor) :
    scanEndpoints (before ++ b) fuel before.length endpoints =
      some (endpoints ++ ds.filterMap endpointOf) := by
  obtain ⟨fuel, rfl⟩ : ∃ n, fuel = n + 1 := ⟨fuel - 1, by omega⟩
  induction ds generalizing before b fuel endpoints with
  | nil =>
    obtain rfl : b = t := h.bytes
    simpa using scanEndpoints_tail h.tail fuel endpoints
  | cons d ds ih =>
    have hd := h.descriptors d (by simp)
    have rest : Decomposes (ds.flatten ++ t) ds t :=
      ⟨rfl, fun e he => h.descriptors e (List.mem_cons_of_mem _ he), h.tail⟩
    obtain rfl : b = d ++ (ds.flatten ++ t) := by simpa using h.bytes
    obtain ⟨fuel, rfl⟩ : ∃ n, fuel = n + 1 := ⟨fuel - 1, by simp at enough; omega⟩
    have after := fun endpoints => ih (before ++ d) rest endpoints fuel (by simpa using enough)
    obtain ⟨bLength, bDescriptorType, more, shape, length⟩ := hd.shape
    have total : d.length = bLength.toNat := by rw [shape, length]; rfl
    have bytes : before ++ d ++ (ds.flatten ++ t) = before ++ (d ++ (ds.flatten ++ t)) :=
      List.append_assoc ..
    rw [bytes, List.length_append, total] at after
    have first : (before ++ (d ++ (ds.flatten ++ t)))[before.length]? = some bLength := by
      rw [← Nat.add_zero before.length, getElem?_inside _ _ _ (by omega), shape]
      rfl
    have second : (before ++ (d ++ (ds.flatten ++ t)))[before.length + 1]? =
        some bDescriptorType := by
      rw [getElem?_inside _ _ _ (by omega), shape]
      rfl
    have inside : before.length + 1 < (before ++ (d ++ (ds.flatten ++ t))).length := by
      simp only [List.length_append]
      omega
    have whole : ¬ (bLength.toNat < 2 ∨
        (before ++ (d ++ (ds.flatten ++ t))).length < before.length + bLength.toNat) := by
      simp only [List.length_append]
      omega
    rw [scanEndpoints, if_pos inside]
    simp only [first, Option.bind_eq_bind, Option.bind_some, if_neg whole, second]
    by_cases endpoint : bDescriptorType = usbDtEndpoint ∧ 7 ≤ bLength.toNat
    · have pushed := endpointAtOffset_eq before (ds.flatten ++ t) shape length endpoint.2 endpoint.1
      obtain ⟨e, he⟩ := endpointOf_eq_some endpoint.1 (length ▸ endpoint.2)
      rw [← shape] at he
      rw [if_pos endpoint, pushed, he, Option.bind_some, after, List.filterMap_cons_some he,
        List.append_assoc, List.singleton_append]
    · have none_pushed : endpointOf d = none := by
        rw [shape]
        exact endpointOf_eq_none (by rwa [← length])
      rw [if_neg endpoint, after, List.filterMap_cons_none none_pushed]

theorem parseEndpoints_tail {t : List UInt8} (tail : IsTail t) (fuel : ℕ) :
    parseEndpoints fuel t = [] := by
  match fuel, t with
  | 0, _ => rfl
  | _ + 1, [] => rfl
  | _ + 1, [_] => rfl
  | _ + 1, bLength :: bDescriptorType :: rest =>
    unfold parseEndpoints
    rw [dif_neg]
    rintro ⟨low, high⟩
    rcases tail with short | ⟨first, others, same, short⟩
    · simp only [List.length_cons] at short
      omega
    · obtain ⟨rfl, _⟩ := List.cons.inj same
      omega

/-- The fields behind the front of the data are those of the descriptor there. -/
theorem endpointAt_eq {bLength bDescriptorType : UInt8} {more : List UInt8} (after : List UInt8)
    (length : bLength.toNat = more.length + 2) (type : bDescriptorType = usbDtEndpoint)
    (inside : bLength.toNat ≤ (bLength :: bDescriptorType :: (more ++ after)).length)
    (long : 7 ≤ bLength.toNat) :
    some (endpointAt (bLength :: bDescriptorType :: (more ++ after)) bLength bDescriptorType inside
      long) = endpointOf (bLength :: bDescriptorType :: more) := by
  obtain ⟨a, b, c, d, e, more, rfl⟩ : ∃ a b c d e rest, more = a :: b :: c :: d :: e :: rest := by
    match more with
    | a :: b :: c :: d :: e :: rest => exact ⟨_, _, _, _, _, _, rfl⟩
    | [] | [_] | [_, _] | [_, _, _] | [_, _, _, _] => simp at length; omega
  have length : bLength.toNat = more.length + 7 := length
  match more with
  | [] => simp_all [endpointAt, endpointOf, u16le_get_pair]
  | [f] => simp_all [endpointAt, endpointOf, u16le_get_pair]
  | f :: g :: more =>
    have : 7 < bLength.toNat := by simp at length; omega
    have : 8 < bLength.toNat := by simp at length; omega
    simp_all [endpointAt, endpointOf, u16le_get_pair]

/-- The walk on the rest of the data collects the same endpoints. -/
theorem parseEndpoints_eq {b : List UInt8} {ds : List (List UInt8)} {t : List UInt8}
    (h : Decomposes b ds t) {fuel : ℕ} (enough : ds.length ≤ fuel) :
    parseEndpoints fuel b = ds.filterMap endpointOf := by
  induction ds generalizing b fuel with
  | nil =>
    obtain rfl : b = t := h.bytes
    exact parseEndpoints_tail h.tail fuel
  | cons d ds ih =>
    obtain ⟨fuel, rfl⟩ : ∃ n, fuel = n + 1 := ⟨fuel - 1, by simp at enough; omega⟩
    have rest : Decomposes (ds.flatten ++ t) ds t :=
      ⟨rfl, fun e he => h.descriptors e (List.mem_cons_of_mem _ he), h.tail⟩
    obtain ⟨bLength, bDescriptorType, more, rfl, length⟩ := (h.descriptors d (by simp)).shape
    obtain rfl : b = bLength :: bDescriptorType :: (more ++ (ds.flatten ++ t)) := by
      simpa using h.bytes
    have whole : 2 ≤ bLength.toNat ∧
        bLength.toNat ≤ (bLength :: bDescriptorType :: (more ++ (ds.flatten ++ t))).length := by
      simp only [List.length_cons, List.length_append]
      omega
    have dropped : (bLength :: bDescriptorType :: (more ++ (ds.flatten ++ t))).drop bLength.toNat =
        ds.flatten ++ t := by
      rw [length]
      exact List.drop_left
    unfold parseEndpoints
    rw [dif_pos whole]
    dsimp only
    rw [dropped, ih rest (by simpa using enough)]
    by_cases endpoint : bDescriptorType = usbDtEndpoint ∧ 7 ≤ bLength.toNat
    · have pushed := endpointAt_eq (ds.flatten ++ t) length endpoint.1 whole.2 endpoint.2
      rw [dif_pos endpoint, List.filterMap_cons_some pushed.symm]
    · rw [dif_neg endpoint, List.filterMap_cons_none (endpointOf_eq_none (by rwa [← length]))]

/-- Every descriptor has bytes of its own. -/
theorem Decomposes.length_le {b : List UInt8} {ds : List (List UInt8)} {t : List UInt8}
    (h : Decomposes b ds t) : ds.length ≤ b.length := by
  induction ds generalizing b with
  | nil => simp
  | cons d ds ih =>
    have long := (h.descriptors d (by simp)).1
    have rest := @ih (ds.flatten ++ t)
      ⟨rfl, fun e he => h.descriptors e (List.mem_cons_of_mem _ he), h.tail⟩
    rw [h.bytes]
    simp only [List.flatten_cons, List.length_append, List.length_cons] at rest ⊢
    omega

/-- Every string of bytes has exactly one decomposition, and the loop ends on it
with its endpoint descriptors, without an index out of range. -/
theorem parse_endpoint_descriptors_grammar (b : List UInt8) :
    ∃ ds t, Decomposes b ds t ∧ (∀ ds' t', Decomposes b ds' t' → ds' = ds ∧ t' = t) ∧
      (∀ fuel, b.length < fuel → scanEndpoints b fuel 0 [] = some (ds.filterMap endpointOf)) ∧
      parseEndpointDescriptors b = ds.filterMap endpointOf := by
  obtain ⟨ds, t, h⟩ := decomposes_exists b
  have fewer := h.length_le
  refine ⟨ds, t, h, fun ds' t' h' => h'.unique h, fun fuel enough => ?_, parseEndpoints_eq h fewer⟩
  exact scanEndpoints_eq [] h (by omega) []

/-! ## Data that is cut short -/

/-- Descriptors in front of a string go in front of its decomposition. -/
theorem Decomposes.chain_append {b : List UInt8} {ds : List (List UInt8)} {t : List UInt8}
    (h : Decomposes b ds t) {chain : List (List UInt8)} (whole : ∀ d ∈ chain, IsDescriptor d) :
    Decomposes (chain.flatten ++ b) (chain ++ ds) t := by
  constructor
  · rw [h.bytes, List.flatten_append, List.append_assoc]
  · intro d hd
    rcases List.mem_append.mp hd with hd | hd
    · exact whole d hd
    · exact h.descriptors d hd
  · exact h.tail

theorem Decomposes.parse_eq {b : List UInt8} {ds : List (List UInt8)} {t : List UInt8}
    (h : Decomposes b ds t) : parseEndpointDescriptors b = ds.filterMap endpointOf :=
  parseEndpoints_eq h h.length_le

theorem decomposes_chain {chain : List (List UInt8)} (whole : ∀ d ∈ chain, IsDescriptor d) :
    Decomposes chain.flatten chain [] := by
  constructor
  · rw [List.append_nil]
  · exact whole
  · exact .inl (by simp)

/-- The walk over whole descriptors goes on with what follows them. -/
theorem parse_chain_append {chain : List (List UInt8)} (whole : ∀ d ∈ chain, IsDescriptor d)
    (y : List UInt8) :
    parseEndpointDescriptors (chain.flatten ++ y) =
      parseEndpointDescriptors chain.flatten ++ parseEndpointDescriptors y := by
  obtain ⟨ds, t, h⟩ := decomposes_exists y
  rw [(h.chain_append whole).parse_eq, (decomposes_chain whole).parse_eq, h.parse_eq,
    List.filterMap_append]

/-- Wherever the first part ends, its endpoints are the first ones of the whole. -/
theorem parse_prefix_append (x y : List UInt8) :
    parseEndpointDescriptors x <+: parseEndpointDescriptors (x ++ y) := by
  obtain ⟨ds, t, h⟩ := decomposes_exists x
  have begins : parseEndpointDescriptors x = parseEndpointDescriptors ds.flatten := by
    rw [h.parse_eq, (decomposes_chain h.descriptors).parse_eq]
  -- the descriptor that the cut goes through starts in the tail
  have bytes : x ++ y = ds.flatten ++ (t ++ y) := by rw [h.bytes, List.append_assoc]
  rw [begins, bytes, parse_chain_append h.descriptors]
  exact List.prefix_append ..

/-- Endpoints are found in the order of the bytes: more bytes only add endpoints at
the end, bytes behind whole descriptors are parsed by themselves, and data that is
cut short gives the first endpoints of the whole. -/
theorem parse_endpoint_descriptors_monotone (x y : List UInt8) :
    parseEndpointDescriptors x <+: parseEndpointDescriptors (x ++ y) ∧
      ((∃ ds : List (List UInt8), (∀ d ∈ ds, IsDescriptor d) ∧ x = ds.flatten) →
        parseEndpointDescriptors (x ++ y) =
          parseEndpointDescriptors x ++ parseEndpointDescriptors y) ∧
      ∀ n, parseEndpointDescriptors (x.take n) <+: parseEndpointDescriptors x := by
  refine ⟨parse_prefix_append x y, ?_, ?_⟩
  · rintro ⟨ds, whole, rfl⟩
    exact parse_chain_append whole y
  · intro n
    have cut := parse_prefix_append (x.take n) (x.drop n)
    rwa [List.take_append_drop] at cut

/-- Two endpoints, the data cut inside the second one. -/
theorem parse_endpoint_descriptors_monotone_cut :
    parseEndpointDescriptors ([7, 5, 0x81, 3, 64, 0, 10] ++ [7, 5, 0x02, 2]) =
      parseEndpointDescriptors [7, 5, 0x81, 3, 64, 0, 10] ++
        parseEndpointDescriptors [7, 5, 0x02, 2] := by
  refine (parse_endpoint_descriptors_monotone [7, 5, 0x81, 3, 64, 0, 10] [7, 5, 0x02, 2]).2.1
    ⟨[[7, 5, 0x81, 3, 64, 0, 10]], ?_, rfl⟩
  intro d hd
  obtain rfl := List.mem_singleton.mp hd
  exact ⟨by decide, _, _, rfl, by decide⟩

end UsbipDevirt
