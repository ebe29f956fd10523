import UsbipDevirt.RawGadget

/-!
# Configuration descriptors

`parse_endpoint_descriptors` walks the chain of descriptors by their length
bytes. The walk is on the rest of the data behind `offset`; every index is
taken with the proof that it is in range.
-/

namespace UsbipDevirt

open Bytes

/-- The endpoint descriptor at the front of `d`, `bLength` bytes long. -/
def endpointAt (d : List UInt8) (bLength : UInt8) (bDescriptorType : UInt8)
    (inside : bLength.toNat ≤ d.length) (long : 7 ≤ bLength.toNat) : UsbEndpointDescriptor where
  bLength := bLength
  bDescriptorType := bDescriptorType
  bEndpointAddress := d[2]
  bmAttributes := d[3]
  wMaxPacketSize := u16le.get [d[4], d[5]]
  bInterval := d[6]
  bRefresh := if h : 7 < bLength.toNat then d[7] else 0
  bSynchAddress := if h : 8 < bLength.toNat then d[8] else 0

/-- The loop, with a bound on its iterations. -/
def parseEndpoints : ℕ → List UInt8 → List UsbEndpointDescriptor
  | fuel + 1, d@(bLength :: bDescriptorType :: _) =>
    if h : 2 ≤ bLength.toNat ∧ bLength.toNat ≤ d.length then
      let rest := parseEndpoints fuel (d.drop bLength.toNat)
      if e : bDescriptorType = usbDtEndpoint ∧ 7 ≤ bLength.toNat then
        endpointAt d bLength bDescriptorType h.2 e.2 :: rest
      else rest
    else []
  | _, _ => []

/-- Every iteration moves on, so there are no more of them than bytes. -/
def parseEndpointDescriptors (configData : List UInt8) : List UsbEndpointDescriptor :=
  parseEndpoints configData.length configData

theorem parseEndpoints_of_short {d : List UInt8} (h : d.length < 2) (n : ℕ) :
    parseEndpoints n d = [] := by
  match n, d with
  | 0, _ => rfl
  | _ + 1, [] => rfl
  | _ + 1, [_] => rfl
  | _ + 1, _ :: _ :: _ =>
    simp only [List.length_cons] at h
    omega

/-- The bound on the iterations is never reached. -/
theorem parseEndpoints_fuel {n m : ℕ} {d : List UInt8} (hn : d.length ≤ n) (hm : d.length ≤ m) :
    parseEndpoints n d = parseEndpoints m d := by
  induction n generalizing m d with
  | zero => rw [parseEndpoints_of_short (by omega), parseEndpoints_of_short (by omega)]
  | succ n ih =>
    match d, m with
    | [], _ | [_], _ =>
      rw [parseEndpoints_of_short (by simp), parseEndpoints_of_short (by simp)]
    | _ :: _ :: _, 0 => simp at hm
    | bLength :: bDescriptorType :: tail, m + 1 =>
      unfold parseEndpoints
      split
      · next h =>
        have shorter : ((bLength :: bDescriptorType :: tail).drop bLength.toNat).length + 2 ≤
            (bLength :: bDescriptorType :: tail).length := by
          rw [List.length_drop]
          omega
        rw [ih (m := m) (by omega) (by omega)]
      · rfl

end UsbipDevirt
