import UsbipDevirt.Client

/-!
# Response streams

How many bytes a response occupies depends on the direction recorded when its
URB was submitted and on the entries earlier responses removed. `Answers` is
the wire format with these maps made explicit: a message, the maps in front of
it, the value it stands for and the maps behind it. Receiving inverts it, one
message per call, on streams of any length.
-/

namespace UsbipDevirt

open Bytes

/-- A response as the server puts it on the wire. -/
inductive Message where
  | submit (header : RetSubmitHeader) (payload : List UInt8)
  | unlink (header : RetUnlinkHeader)
  deriving DecidableEq

def Message.encode : Message → List UInt8
  | .submit header payload => RetSubmitHeader.format.put header ++ payload
  | .unlink header => RetUnlinkHeader.format.put header

/-- One well-formed response in front of the given maps. The header fields
that the client ignores are arbitrary. -/
inductive Answers : SharedState → Message → UrbResponse → SharedState → Prop where
  | submit {maps : SharedState} {header : RetSubmitHeader} {payload : List UInt8}
      {direction : Direction} (command : header.command = usbipRetSubmit)
      (known : maps.pending.lookup header.seqnum = some direction)
      (inLength : direction = .in → payload.length = header.actualLength.toNat)
      (outEmpty : direction = .out → payload = []) :
      Answers maps (.submit header payload)
        (.submit ⟨header.seqnum, header.status, header.actualLength, payload, direction⟩)
        { maps with pending := maps.pending.erase header.seqnum }
  | unlink {maps : SharedState} {header : RetUnlinkHeader}
      (command : header.command = usbipRetUnlink) :
      Answers maps (.unlink header) (.unlink ⟨header.seqnum, header.status⟩)
        (maps.applyUnlink header)

theorem Answers.of_submit {maps maps' : SharedState} {header : RetSubmitHeader}
    {payload : List UInt8} {r : UrbResponse} (h : Answers maps (.submit header payload) r maps') :
    ∃ direction, header.command = usbipRetSubmit ∧
      maps.pending.lookup header.seqnum = some direction ∧
      (direction = .in → payload.length = header.actualLength.toNat) ∧
      (direction = .out → payload = []) ∧ r = .submit (header.toRet payload direction) ∧
      maps' = { maps with pending := maps.pending.erase header.seqnum } := by
  generalize hm : Message.submit header payload = m at h
  cases h with
  | submit command known inLength outEmpty =>
    obtain ⟨rfl, rfl⟩ := Message.submit.inj hm
    exact ⟨_, command, known, inLength, outEmpty, rfl, rfl⟩
  | unlink => cases hm

theorem Answers.of_unlink {maps maps' : SharedState} {header : RetUnlinkHeader} {r : UrbResponse}
    (h : Answers maps (.unlink header) r maps') :
    header.command = usbipRetUnlink ∧ r = .unlink ⟨header.seqnum, header.status⟩ ∧
      maps' = maps.applyUnlink header := by
  generalize hm : Message.unlink header = m at h
  cases h with
  | submit => cases hm
  | unlink hcommand =>
    obtain rfl := Message.unlink.inj hm
    exact ⟨hcommand, rfl, rfl⟩

/-- A finite stream of responses, each in front of the maps the earlier ones left. -/
inductive AnswersAll : SharedState → List Message → List UrbResponse → SharedState → Prop where
  | nil {maps : SharedState} : AnswersAll maps [] [] maps
  | cons {maps mid final : SharedState} {m : Message} {r : UrbResponse} {ms : List Message}
      {rs : List UrbResponse} (head : Answers maps m r mid) (tail : AnswersAll mid ms rs final) :
      AnswersAll maps (m :: ms) (r :: rs) final

theorem AnswersAll.of_nil {maps final : SharedState} {rs : List UrbResponse}
    (h : AnswersAll maps [] rs final) : rs = [] ∧ final = maps := by
  cases h
  exact ⟨rfl, rfl⟩

theorem AnswersAll.of_cons {maps final : SharedState} {m : Message} {ms : List Message}
    {rs : List UrbResponse} (h : AnswersAll maps (m :: ms) rs final) :
    ∃ mid r rest, rs = r :: rest ∧ Answers maps m r mid ∧ AnswersAll mid ms rest final := by
  cases h with
  | cons head tail => exact ⟨_, _, _, rfl, head, tail⟩

/-- Call a receiving function `k` times, as long as every call returns `Ok`. -/
def recvTimes (recv : ReadSide → Except IoError UrbResponse × ReadSide) :
    Nat → ReadSide → Option (List UrbResponse × ReadSide)
  | 0, r => some ([], r)
  | k + 1, r =>
    match recv r with
    | (.error _, _) => none
    | (.ok response, r) => (recvTimes recv k r).map fun (rs, r) => (response :: rs, r)

theorem Input.readExact_ok_iff (r r' : Input) (n : Nat) (bs : List UInt8) :
    r.readExact n = (.ok bs, r') ↔
      bs.length = n ∧ r.bytes = bs ++ r'.bytes ∧ r'.failure = r.failure := by
  unfold Input.readExact
  constructor
  · intro h
    split at h
    · next hn =>
      simp only [Prod.mk.injEq, Except.ok.injEq] at h
      obtain ⟨rfl, rfl⟩ := h
      exact ⟨List.length_take_of_le hn, (List.take_append_drop n r.bytes).symm, rfl⟩
    · cases h
  · rintro ⟨rfl, hbytes, hfail⟩
    rw [if_pos (by simp [hbytes]), hbytes, List.take_left, List.drop_left]
    cases r'
    cases hfail
    rfl

/-- A RET_SUBMIT is decoded exactly when its header names a pending URB and is
followed by the payload that this URB's direction calls for. -/
theorem recv_retSubmit_iff {buf : List UInt8} {r r' : ReadSide} {input : Input}
    {header : RetSubmitHeader} {response : UrbResponse}
    (hread : r.input.readExact 48 = (.ok buf, input))
    (hparse : parseHeader buf = .retSubmit header) :
    recvUrbResponse r = (.ok response, r') ↔
      ∃ payload, Answers r.maps (.submit header payload) response r'.maps ∧
        input.bytes = payload ++ r'.input.bytes ∧ r'.input.failure = input.failure := by
  have hcommand : header.command = usbipRetSubmit :=
    ((parseHeader_retSubmit_iff ((Input.readExact_ok_iff ..).mp hread).1 header).mp hparse).1
  simp only [recvUrbResponse, hread, hparse]
  constructor
  · intro h
    cases hd : r.maps.pending.lookup header.seqnum with
    | none => simp [hd] at h
    | some direction =>
      simp only [hd] at h
      split at h
      · next hin =>
        split at h
        · cases h
        · next data input' hdata =>
          obtain ⟨hlen, hbytes, hfail⟩ := (Input.readExact_ok_iff ..).mp hdata
          simp only [Prod.mk.injEq, Except.ok.injEq] at h
          obtain ⟨rfl, rfl⟩ := h
          refine ⟨data, .submit hcommand hd (fun _ => hlen) ?_, hbytes, hfail⟩
          intro hout
          exact absurd (hin.1.symm.trans hout) (by decide)
      · next hnot =>
        simp only [Prod.mk.injEq, Except.ok.injEq] at h
        obtain ⟨rfl, rfl⟩ := h
        refine ⟨[], .submit hcommand hd ?_ (fun _ => rfl), rfl, rfl⟩
        intro hin
        have : ¬ 0 < header.actualLength := fun hpos => hnot ⟨hin, hpos⟩
        have hzero : header.actualLength.toNat = 0 := by
          simpa [UInt32.lt_iff_toNat_lt] using this
        simp [hzero]
  · rintro ⟨payload, hans, hbytes, hfail⟩
    obtain ⟨direction, _, hknown, inLength, outEmpty, rfl, hmaps⟩ := hans.of_submit
    simp only [hknown, ← hmaps]
    by_cases hin : direction = .in ∧ 0 < header.actualLength
    · have hdata : input.readExact header.actualLength.toNat = (.ok payload, r'.input) :=
        (Input.readExact_ok_iff ..).mpr ⟨inLength hin.1, hbytes, hfail⟩
      simp only [if_pos hin, hdata]
    · have hnil : payload = [] := by
        cases direction with
        | out => exact outEmpty rfl
        | «in» =>
          have hpos : ¬ 0 < header.actualLength := fun h => hin ⟨rfl, h⟩
          have hlen := inLength rfl
          simp only [UInt32.lt_iff_toNat_lt, UInt32.toNat_zero] at hpos
          exact List.eq_nil_of_length_eq_zero (by omega)
      subst hnil
      have hsame : input = r'.input := Input.ext (by simpa using hbytes) hfail.symm
      simp only [if_neg hin, hsame]

/-- One call: the bytes consumed are exactly one well-formed response. -/
theorem recvUrbResponse_ok_iff (r r' : ReadSide) (response : UrbResponse) :
    recvUrbResponse r = (.ok response, r') ↔
      ∃ m, Answers r.maps m response r'.maps ∧
        r.input.bytes = m.encode ++ r'.input.bytes ∧ r'.input.failure = r.input.failure := by
  constructor
  · intro h
    cases hread : r.input.readExact 48 with
    | mk res input =>
      cases res with
      | error e => simp [recvUrbResponse, hread] at h
      | ok buf =>
        obtain ⟨hlen, hbytes, hfail⟩ := (Input.readExact_ok_iff ..).mp hread
        cases hparse : parseHeader buf with
        | retSubmit header =>
          obtain ⟨payload, hans, hrest, hfail'⟩ := (recv_retSubmit_iff hread hparse).mp h
          obtain ⟨_, rfl⟩ := (parseHeader_retSubmit_iff hlen header).mp hparse
          refine ⟨.submit header payload, hans, ?_, hfail'.trans hfail⟩
          rw [hbytes, hrest, Message.encode, List.append_assoc]
        | retUnlink header =>
          obtain ⟨hcommand, rfl⟩ := (parseHeader_retUnlink_iff hlen header).mp hparse
          simp only [recvUrbResponse, hread, hparse, Prod.mk.injEq, Except.ok.injEq] at h
          obtain ⟨rfl, rfl⟩ := h
          exact ⟨.unlink header, .unlink hcommand, hbytes, hfail⟩
        | unknown command => simp [recvUrbResponse, hread, hparse] at h
  · rintro ⟨m, hans, hbytes, hfail⟩
    cases m with
    | submit header payload =>
      obtain ⟨_, hcommand, _⟩ := hans.of_submit
      have hread : r.input.readExact 48 =
          (.ok (RetSubmitHeader.format.put header),
            ⟨payload ++ r'.input.bytes, r.input.failure⟩) := by
        refine (Input.readExact_ok_iff ..).mpr ⟨by simp, ?_, rfl⟩
        rw [hbytes, Message.encode, List.append_assoc]
      have hparse := (parseHeader_retSubmit_iff (by simp) header).mpr ⟨hcommand, rfl⟩
      exact (recv_retSubmit_iff hread hparse).mpr ⟨payload, hans, rfl, hfail⟩
    | unlink header =>
      have hread : r.input.readExact 48 =
          (.ok (RetUnlinkHeader.format.put header), r'.input) :=
        (Input.readExact_ok_iff ..).mpr ⟨by simp, hbytes, hfail⟩
      obtain ⟨hcommand, rfl, hmaps⟩ := hans.of_unlink
      have hparse := (parseHeader_retUnlink_iff (by simp) header).mpr ⟨hcommand, rfl⟩
      simp only [recvUrbResponse, hread, hparse, ← hmaps]

/-- The encodings of a stream, one after the other. -/
def encodeAll (ms : List Message) : List UInt8 := ms.flatMap Message.encode

@[simp] theorem encodeAll_cons (m : Message) (ms : List Message) :
    encodeAll (m :: ms) = m.encode ++ encodeAll ms := rfl

theorem recvTimes_iff (k : Nat) (r r' : ReadSide) (rs : List UrbResponse) :
    recvTimes recvUrbResponse k r = some (rs, r') ↔
      ∃ ms, ms.length = k ∧ AnswersAll r.maps ms rs r'.maps ∧
        r.input.bytes = encodeAll ms ++ r'.input.bytes ∧ r'.input.failure = r.input.failure := by
  induction k generalizing r rs with
  | zero =>
    simp only [recvTimes, Option.some.injEq, Prod.mk.injEq]
    constructor
    · rintro ⟨rfl, rfl⟩
      exact ⟨[], rfl, .nil, rfl, rfl⟩
    · rintro ⟨ms, hlen, hall, hbytes, hfail⟩
      obtain rfl := List.eq_nil_of_length_eq_zero hlen
      obtain ⟨rfl, hmaps⟩ := hall.of_nil
      exact ⟨rfl, ReadSide.ext (Input.ext (by simpa [encodeAll] using hbytes) hfail.symm)
        hmaps.symm⟩
  | succ k ih =>
    constructor
    · intro h
      cases hrecv : recvUrbResponse r with
      | mk res mid =>
        cases res with
        | error e => simp [recvTimes, hrecv] at h
        | ok response =>
          simp only [recvTimes, hrecv, Option.map_eq_some_iff, Prod.mk.injEq] at h
          obtain ⟨⟨rest, last⟩, hrest, rfl, rfl⟩ := h
          obtain ⟨m, hans, hbytes, hfail⟩ := (recvUrbResponse_ok_iff ..).mp hrecv
          obtain ⟨ms, hlen, hall, hbytes', hfail'⟩ := (ih mid rest).mp hrest
          refine ⟨m :: ms, by simp [hlen], .cons hans hall, ?_, hfail'.trans hfail⟩
          rw [hbytes, hbytes', encodeAll_cons, List.append_assoc]
    · rintro ⟨ms, hlen, hall, hbytes, hfail⟩
      cases ms with
      | nil => simp at hlen
      | cons m ms =>
        obtain ⟨mid, response, rest, rfl, hans, htail⟩ := hall.of_cons
        have hrecv : recvUrbResponse r =
            (.ok response, ⟨⟨encodeAll ms ++ r'.input.bytes, r.input.failure⟩, mid⟩) := by
          refine (recvUrbResponse_ok_iff ..).mpr ⟨m, hans, ?_, rfl⟩
          rw [hbytes, encodeAll_cons, List.append_assoc]
        have hrest := (ih ⟨⟨encodeAll ms ++ r'.input.bytes, r.input.failure⟩, mid⟩ rest).mpr
          ⟨ms, by simpa using hlen, htail, rfl, hfail⟩
        simp only [recvTimes, hrecv, hrest, Option.map_some]

/-- `recv` reads back every well-formed stream, consuming its bytes and no
more, and when `k` calls return `Ok` they have consumed such a stream. -/
def InvertsResponses (recv : ReadSide → Except IoError UrbResponse × ReadSide) : Prop :=
  (∀ (maps final : SharedState) (ms : List Message) (rs : List UrbResponse)
      (rest : List UInt8) (failure : IoError), AnswersAll maps ms rs final →
    recvTimes recv ms.length ⟨⟨encodeAll ms ++ rest, failure⟩, maps⟩ =
      some (rs, ⟨⟨rest, failure⟩, final⟩)) ∧
  (∀ (k : Nat) (r r' : ReadSide) (rs : List UrbResponse),
    recvTimes recv k r = some (rs, r') →
    ∃ ms, ms.length = k ∧ AnswersAll r.maps ms rs r'.maps ∧
      r.input.bytes = encodeAll ms ++ r'.input.bytes)

theorem recv_inverts_responses :
    InvertsResponses recvUrbResponse ∧ InvertsResponses UsbipReader.recv := by
  have unsplit : InvertsResponses recvUrbResponse := by
    constructor
    · intro maps final ms rs rest failure hall
      exact (recvTimes_iff ..).mpr ⟨ms, rfl, hall, rfl, rfl⟩
    · intro k r r' rs h
      obtain ⟨ms, hlen, hall, hbytes, _⟩ := (recvTimes_iff ..).mp h
      exact ⟨ms, hlen, hall, hbytes⟩
  have same : UsbipReader.recv = recvUrbResponse := funext UsbipReader.recv_eq
  exact ⟨unsplit, same ▸ unsplit⟩

/-- Headers with nothing but what the client reads of them. -/
def retSubmitHeader (seqnum actualLength : UInt32) : RetSubmitHeader where
  command := usbipRetSubmit
  seqnum := seqnum
  devid := 0
  direction := 0
  ep := 0
  status := 0
  actualLength := actualLength
  startFrame := 0
  numberOfPackets := 0
  errorCount := 0
  padding := List.Vector.replicate 8 0

def retUnlinkHeader (seqnum : UInt32) (status : Int32) : RetUnlinkHeader where
  command := usbipRetUnlink
  seqnum := seqnum
  devid := 0
  direction := 0
  ep := 0
  status := status
  padding := List.Vector.replicate 24 0

/-- An IN and an OUT request are answered, and a third one is cancelled. -/
def answeredStream : List Message :=
  [.submit (retSubmitHeader 1 3) [1, 0, 4], .submit (retSubmitHeader 2 8) [],
    .unlink (retUnlinkHeader 5 (-econnreset))]

def awaiting : SharedState where
  pending := ((Finmap.singleton 1 .in).insert 2 .out).insert 3 .in
  unlinks := Finmap.singleton 5 3

def decodedStream : List UrbResponse :=
  [.submit ⟨1, 0, 3, [1, 0, 4], .in⟩, .submit ⟨2, 0, 8, [], .out⟩, .unlink ⟨5, -econnreset⟩]

/-- Three calls read them back and leave what comes behind them. -/
theorem recv_inverts_responses_three : ∃ final : SharedState,
    final.pending.lookup 3 = none ∧ final.unlinks.lookup 5 = none ∧
    ∀ failure, recvTimes UsbipReader.recv answeredStream.length
      ⟨⟨encodeAll answeredStream ++ [7], failure⟩, awaiting⟩ =
        some (decodedStream, ⟨⟨[7], failure⟩, final⟩) := by
  have first : awaiting.pending.lookup 1 = some .in := by decide
  have second : (awaiting.pending.erase 1).lookup 2 = some .out := by decide
  have answers : AnswersAll awaiting answeredStream decodedStream _ :=
    .cons (.submit rfl first (fun _ => rfl) (by rintro ⟨⟩)) <|
      .cons (.submit rfl second (by rintro ⟨⟩) fun _ => rfl) <| .cons (.unlink rfl) .nil
  obtain ⟨-, decodes, -⟩ := recv_inverts_responses
  refine ⟨_, ?_, ?_, fun failure => decodes _ _ _ _ [7] failure answers⟩
  · decide
  · decide

end UsbipDevirt
