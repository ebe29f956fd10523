import UsbipDevirt.Failures

/-!
# The device that the host sees

A device is what its control requests show of it: a relation between its state,
a request with the bytes of its data stage, an outcome, and the state after it.
The bridge presents a device of its own to the host. It is the remote device,
except that SET_ADDRESS is acknowledged without it, and that an OUT request with
a data stage is acknowledged whatever the remote device makes of it.

What the host asks for and sends is its own, and so is what it sees: the kernel
stands between it and the event loop.
-/

namespace UsbipDevirt

open Program Program.Prog RawGadgetDevice

/-! ## Devices -/

/-- How a control request ends. -/
inductive ControlOutcome where
  | data (bytes : List UInt8)
  | acknowledged
  | stalled
  deriving DecidableEq

/-- A control request with what the host sends and what comes of it. -/
structure Transfer where
  ctrl : UsbCtrlRequest
  sent : List UInt8
  outcome : ControlOutcome
  deriving DecidableEq

/-- What a device makes of a control request, which may be more than one thing. -/
structure Device (σ : Type) where
  control : σ → Transfer → σ → Prop

/-- An OUT request with a data stage. -/
def UsbCtrlRequest.SendsData (ctrl : UsbCtrlRequest) : Prop := ¬ ctrl.IsIn ∧ 0 < ctrl.wLength

instance (ctrl : UsbCtrlRequest) : Decidable ctrl.SendsData :=
  inferInstanceAs (Decidable (_ ∧ _))

instance (ctrl : UsbCtrlRequest) : Decidable ctrl.IsSetAddress :=
  inferInstanceAs (Decidable (_ ∧ _))

namespace Device

variable {σ : Type} {D : Device σ} {s t r : σ}

/-- These transfers, one after the other, lead from one state to another. -/
inductive Shows (D : Device σ) : σ → List Transfer → σ → Prop
  | nil {s : σ} : Shows D s [] s
  | cons {s t r : σ} {x : Transfer} {xs : List Transfer} : D.control s x t → Shows D t xs r →
      Shows D s (x :: xs) r

theorem Shows.append {xs ys : List Transfer} (h : D.Shows s xs t) (h' : D.Shows t ys r) :
    D.Shows s (xs ++ ys) r := by
  induction h with
  | nil => exact h'
  | cons first _ ih => exact .cons first (ih h')

theorem Shows.split {xs ys : List Transfer} (h : D.Shows s (xs ++ ys) r) :
    ∃ t, D.Shows s xs t ∧ D.Shows t ys r := by
  induction xs generalizing s with
  | nil => exact ⟨s, .nil, h⟩
  | cons x xs ih =>
    cases h with
    | cons first later =>
      obtain ⟨t, before, after⟩ := ih later
      exact ⟨t, .cons first before, after⟩

theorem shows_nil : D.Shows s [] t ↔ t = s := by
  constructor
  · rintro ⟨⟩
    rfl
  · rintro rfl
    exact .nil

theorem shows_singleton {x : Transfer} : D.Shows s [x] t ↔ D.control s x t := by
  constructor
  · intro h
    cases h with
    | cons first later =>
      obtain rfl := shows_nil.mp later
      exact first
  · exact fun first => .cons first .nil

/-- The device as the bridge presents it. -/
def presented (D : Device σ) : Device σ where
  control s x t :=
    if x.ctrl.IsSetAddress then t = s ∧ x.sent = [] ∧ x.outcome = .acknowledged
    else if x.ctrl.SendsData then
      x.outcome = .acknowledged ∧ ∃ outcome, D.control s { x with outcome } t
    else D.control s x t

/-- A device to which the exceptions make no difference. -/
structure Plain (D : Device σ) : Prop where
  address : ∀ s x t, x.ctrl.IsSetAddress →
    (D.control s x t ↔ t = s ∧ x.sent = [] ∧ x.outcome = .acknowledged)
  accepts : ∀ s x t, x.ctrl.SendsData → D.control s x t → x.outcome = .acknowledged

theorem Plain.presented_iff (h : D.Plain) (x : Transfer) :
    D.presented.control s x t ↔ D.control s x t := by
  unfold presented
  dsimp only
  by_cases address : x.ctrl.IsSetAddress
  · rw [if_pos address, h.address s x t address]
  · rw [if_neg address]
    by_cases sends : x.ctrl.SendsData
    · rw [if_pos sends]
      constructor
      · rintro ⟨acknowledged, outcome, control⟩
        have same : outcome = .acknowledged := h.accepts s { x with outcome } t sends control
        subst same
        rwa [← acknowledged] at control
      · intro control
        exact ⟨h.accepts s x t sends control, x.outcome, control⟩
    · rw [if_neg sends]

theorem Plain.shows_iff (h : D.Plain) (xs : List Transfer) :
    D.presented.Shows s xs t ↔ D.Shows s xs t := by
  constructor
  · intro shows
    induction shows with
    | nil => exact .nil
    | cons first _ ih => exact .cons ((h.presented_iff _).mp first) ih
  · intro shows
    induction shows with
    | nil => exact .nil
    | cons first _ ih => exact .cons ((h.presented_iff _).mpr first) ih

end Device

/-! ## The remote device -/

/-- What a RET_SUBMIT says has come of the request. -/
def RetSubmit.outcome (ctrl : UsbCtrlRequest) (resp : RetSubmit) : ControlOutcome :=
  if resp.status ≠ 0 then .stalled
  else if ctrl.IsIn then .data resp.data
  else .acknowledged

/-- A CMD_SUBMIT with what its RET_SUBMIT says has come of it. -/
def SubmitArgs.transfer (args : SubmitArgs) (ret : RetSubmit) : Transfer :=
  let ctrl := UsbCtrlRequest.format.get args.setup.toList
  ⟨ctrl, args.data, ret.outcome ctrl⟩

theorem transfer_controlRequest (ctrl : UsbCtrlRequest) (direction : Direction)
    (data : List UInt8) (length : UInt32) (ret : RetSubmit) :
    (controlRequest ctrl direction data length).args.transfer ret =
      ⟨ctrl, data, ret.outcome ctrl⟩ := by
  have same : UsbCtrlRequest.format.get (ctrlToSetup ctrl).toList = ctrl :=
    UsbCtrlRequest.format.get_put ctrl
  simp only [SubmitArgs.transfer, UrbRequest.args, controlRequest, same]

/-- The same of a call of `submit` that has returned. -/
def returnedTransfer (a : UrbRequest × Except IoError RetSubmit) : Option Transfer :=
  a.2.toOption.map a.1.args.transfer

/-- The requests that were submitted in a trace, with what the device has answered. -/
def transfers (es : Trace) : List Transfer := (answers es).filterMap returnedTransfer

@[simp] theorem transfers_nil : transfers [] = [] := rfl

@[simp] theorem transfers_append (es fs : Trace) :
    transfers (es ++ fs) = transfers es ++ transfers fs := by
  simp only [transfers, answers_append, List.filterMap_append]

theorem transfers_of_notSubmit {o : Op} (other : NotSubmit o) (reply : Reply o) :
    transfers [⟨o, reply⟩] = [] := by
  cases o with
  | submit request => exact absurd rfl (other request)
  | ioctl | spawn | join => rfl

/-! ## The host -/

/-- A control request of the host with the bytes that it sends for it. -/
structure HostRequest where
  ctrl : UsbCtrlRequest
  sent : List UInt8
  staged : sent.length = if ctrl.SendsData then ctrl.wLength.toNat else 0

namespace HostRequest

def ends (h : HostRequest) (outcome : ControlOutcome) : Transfer := ⟨h.ctrl, h.sent, outcome⟩

/-- Number 5 stands for SET_ADDRESS, and one read takes the data stage. -/
structure Regular (h : HostRequest) : Prop where
  address : h.ctrl.bRequest = usbReqSetAddress → h.ctrl.IsSetAddress ∧ h.ctrl.wLength = 0
  fits : h.sent.length ≤ ep0BufSize

theorem sent_eq_nil {h : HostRequest} (none : ¬ h.ctrl.SendsData) : h.sent = [] := by
  have staged := h.staged
  rw [if_neg none] at staged
  exact List.eq_nil_of_length_eq_zero staged

end HostRequest

/-- How an operation on endpoint 0 completes the request. -/
def Ioctl.outcome : Ioctl → Option ControlOutcome
  | .ep0Write header buf => some (.data (buf.take header.length.toNat))
  | .ep0Read _ => some .acknowledged
  | .ep0Stall => some .stalled
  | _ => none

/-- It completes the request if it succeeds. -/
def completes : Program.Event Reply → Option ControlOutcome
  | ⟨.ioctl call, reply⟩ => if reply.Succeeds then call.outcome else none
  | _ => none

/-- How the requests are completed in a trace. -/
def outcomes (es : Trace) : List ControlOutcome := es.filterMap completes

/-- A read that succeeds takes what the host sends, as far as it asks for it. -/
def Feeds (sent : List UInt8) : Program.Event Reply → Prop
  | ⟨.ioctl (.ep0Read header), reply⟩ => reply.Succeeds →
      reply.written = sent.take header.length.toNat ∧
        reply.ret.toNatClampNeg = reply.written.length
  | _ => True

theorem feeds_of_none {sent : List UInt8} {e : Program.Event Reply} (none : completes e = none) :
    Feeds sent e := by
  obtain ⟨o, reply⟩ := e
  cases o with
  | ioctl call =>
    cases call with
    | ep0Read header =>
      intro succeeds
      rw [completes, if_pos succeeds] at none
      cases none
    | _ => trivial
  | _ => trivial

/-- The requests that the host has made so far, and the transfers it has seen come to an end. -/
structure Host where
  requests : List HostRequest
  seen : List Transfer

/-- What an operation of the event loop and the kernel's reply are for the host. -/
inductive HostStep (g : Host) (e : Program.Event Reply) : Host → Prop
  | requested {h : HostRequest} (fetched : eventOf [e] = some (.control h.ctrl)) :
      HostStep g e { g with requests := g.requests ++ [h] }
  | completed {before : List HostRequest} {h : HostRequest} {outcome : ControlOutcome}
      (last : g.requests = before ++ [h]) (ended : completes e = some outcome)
      (feeds : Feeds h.sent e) : HostStep g e { g with seen := g.seen ++ [h.ends outcome] }
  | other (fetches : ∀ ctrl, eventOf [e] ≠ some (.control ctrl)) (none : completes e = none) :
      HostStep g e g

/-- The same of a trace. -/
inductive HostRun : Host → Trace → Host → Prop
  | nil {g : Host} : HostRun g [] g
  | cons {g g' g'' : Host} {e : Program.Event Reply} {es : Trace} : HostStep g e g' →
      HostRun g' es g'' → HostRun g (e :: es) g''

theorem HostRun.split {g g' : Host} {es fs : Trace} (h : HostRun g (es ++ fs) g') :
    ∃ between, HostRun g es between ∧ HostRun between fs g' := by
  induction es generalizing g with
  | nil => exact ⟨g, .nil, h⟩
  | cons e es ih =>
    cases h with
    | cons first later =>
      obtain ⟨between, before, after⟩ := ih later
      exact ⟨between, .cons first before, after⟩

/-- The host forgets nothing. -/
theorem HostRun.requests_subset {g g' : Host} {es : Trace} (h : HostRun g es g') :
    g.requests ⊆ g'.requests := by
  induction h with
  | nil => exact List.Subset.refl _
  | cons first _ ih =>
    cases first with
    | requested => exact fun x mem => ih (List.mem_append_left _ mem)
    | completed | other => exact ih

/-- Each request has one outcome, in order. -/
def Host.Settled (g : Host) : Prop :=
  ∃ ends : List ControlOutcome, ends.length = g.requests.length ∧
    g.seen = List.zipWith HostRequest.ends g.requests ends

theorem Host.Settled.snoc {g : Host} (h : g.Settled) (x : HostRequest) (o : ControlOutcome) :
    (⟨g.requests ++ [x], g.seen ++ [x.ends o]⟩ : Host).Settled := by
  obtain ⟨ends, length, seen⟩ := h
  refine ⟨ends ++ [o], by simp [length], ?_⟩
  rw [List.zipWith_append length.symm, seen]
  rfl

/-! ## The handling of one request -/

/-- What the device has answered and what the host has been shown since the request
was fetched. -/
structure Handling where
  answered : List Transfer
  shown : List ControlOutcome

def Handling.after (p : Handling) (e : Program.Event Reply) : Handling :=
  ⟨p.answered ++ transfers [e], p.shown ++ outcomes [e]⟩

/-- The request is settled: the host has been shown one outcome. It is the device's,
but for the two exceptions. -/
inductive Finished (h : HostRequest) : Handling → Prop
  | address (address : h.ctrl.IsSetAddress) : Finished h ⟨[], [.acknowledged]⟩
  | relayed {outcome : ControlOutcome} (other : ¬ h.ctrl.IsSetAddress)
      (direct : ¬ h.ctrl.SendsData) : Finished h ⟨[h.ends outcome], [outcome]⟩
  | accepted {outcome : ControlOutcome} (other : ¬ h.ctrl.IsSetAddress)
      (sends : h.ctrl.SendsData) : Finished h ⟨[h.ends outcome], [.acknowledged]⟩

/-- Where the handling of the request can stand. -/
inductive Stage (h : HostRequest) : Handling → Prop
  | fetched : Stage h ⟨[], []⟩
  | early (other : ¬ h.ctrl.IsSetAddress) (sends : h.ctrl.SendsData) :
      Stage h ⟨[], [.acknowledged]⟩
  | answered {outcome : ControlOutcome} (other : ¬ h.ctrl.IsSetAddress)
      (direct : ¬ h.ctrl.SendsData) : Stage h ⟨[h.ends outcome], []⟩
  | finished {p : Handling} (finished : Finished h p) : Stage h p

/-- Every operation leads to such a stage again, whatever is answered, and none
fetches another request. -/
def handling (h : HostRequest) : Contract Reply Handling where
  others p p' := p' = p
  replies _ := Feeds h.sent
  effect := Handling.after
  permits p o := (∀ buf, o ≠ .ioctl (.eventFetch buf)) ∧
    ∀ reply, Feeds h.sent ⟨o, reply⟩ → Stage h (p.after ⟨o, reply⟩)
  others_refl _ := rfl
  others_trans h h' := h'.trans h

section Rules

variable {α β : Type} {h : HostRequest} {p : Handling} {post : α → Handling → Prop}

theorem handling_ok {a : α} (here : post a p) :
    Meets (handling h) (Leaves post) (.done (.ok a) : Routine α) p := by
  rintro _ rfl
  exact here

/-- It has nothing to do with the request. -/
structure Aside (o : Op) : Prop where
  fetches : ∀ buf, o ≠ .ioctl (.eventFetch buf)
  submits : NotSubmit o
  completes : ∀ call, o = .ioctl call → call.outcome = none

theorem Aside.outcomes {o : Op} (aside : Aside o) (reply : Reply o) :
    outcomes [⟨o, reply⟩] = [] := by
  have none : UsbipDevirt.completes ⟨o, reply⟩ = none := by
    cases o with
    | ioctl call => simp [UsbipDevirt.completes, aside.completes call rfl]
    | submit | spawn | join => rfl
  rw [UsbipDevirt.outcomes, List.filterMap_cons_none none, List.filterMap_nil]

theorem handling_aside {q : Routine α} (uses : Uses Aside q) (stage : Stage h p) :
    Meets (handling h) (Leaves fun _ p' => p' = p) q p := by
  have same {o : Op} (aside : Aside o) (reply : Reply o) : p.after ⟨o, reply⟩ = p := by
    simp only [Handling.after, transfers_of_notSubmit aside.submits, aside.outcomes,
      List.append_nil]
  have kept : Meets (handling h) (fun _ p' => p' = p) q p := by
    refine Meets.of_uses uses rfl (fun _ _ h h' => h'.trans h) ?_
    rintro _ o rfl aside
    refine ⟨⟨aside.fetches, fun reply _ => ?_⟩, fun reply _ => same aside reply⟩
    rwa [same aside]
  refine kept.mono ?_
  rintro (e | a) p' here
  · trivial
  · exact here

/-- An ioctl on endpoint 0 followed by `?`. -/
theorem handling_rawIoctl {call : Ioctl} {outcome : ControlOutcome} {f : IoctlReply → Routine α}
    (completes : call.outcome = some outcome) (stage : Stage h p)
    (next : Stage h ⟨p.answered, p.shown ++ [outcome]⟩)
    (hf : ∀ reply, reply.Succeeds → Feeds h.sent ⟨.ioctl call, reply⟩ →
      Meets (handling h) (Leaves post) (f reply) ⟨p.answered, p.shown ++ [outcome]⟩) :
    Meets (handling h) (Leaves post) (rawIoctl call >>= fun result => ofResult result >>= f) p := by
  have after (reply : IoctlReply) : p.after ⟨.ioctl call, reply⟩ =
      if reply.Succeeds then ⟨p.answered, p.shown ++ [outcome]⟩ else p := by
    by_cases succeeds : reply.Succeeds
    · simp [Handling.after, outcomes, UsbipDevirt.completes, succeeds, completes,
        transfers_of_notSubmit (o := .ioctl call) nofun]
    · simp [Handling.after, outcomes, UsbipDevirt.completes, succeeds,
        transfers_of_notSubmit (o := .ioctl call) nofun]
  rw [rawIoctl_bind]
  rintro p rfl
  refine ⟨⟨?_, fun reply _ => ?_⟩, fun reply feeds => ?_⟩
  · rintro buf ⟨⟩
    cases completes
  · rw [after]
    split
    · exact next
    · exact stage
  · show Meets (handling h) (Leaves post) _ (p.after ⟨.ioctl call, reply⟩)
    rw [after]
    dsimp only
    by_cases failed : reply.ret < 0
    · have fails : ¬ reply.Succeeds := not_not.mpr failed
      rw [if_pos failed, if_neg fails]
      exact meets_error _
    · have succeeds : reply.Succeeds := failed
      rw [if_neg failed, if_pos succeeds]
      exact hf reply failed feeds

/-- A call of `submit` followed by `?`. -/
theorem handling_submit {request : UrbRequest} {f : RetSubmit → Routine α}
    (asks : ∀ resp, request.args.transfer resp = h.ends (resp.outcome h.ctrl))
    (stage : Stage h p) (next : ∀ outcome, Stage h ⟨p.answered ++ [h.ends outcome], p.shown⟩)
    (hf : ∀ resp, Meets (handling h) (Leaves post) (f resp)
      ⟨p.answered ++ [h.ends (resp.outcome h.ctrl)], p.shown⟩) :
    Meets (handling h) (Leaves post)
      (submit request >>= fun result => ofResult result >>= f) p := by
  have failed (e : IoError) : p.after ⟨.submit request, .error e⟩ = p := by
    show (⟨p.answered ++ [], p.shown ++ []⟩ : Handling) = p
    simp only [List.append_nil]
  have returned (resp : RetSubmit) : p.after ⟨.submit request, .ok resp⟩ =
      ⟨p.answered ++ [h.ends (resp.outcome h.ctrl)], p.shown⟩ := by
    show (⟨p.answered ++ [request.args.transfer resp], p.shown ++ []⟩ : Handling) = _
    rw [asks, List.append_nil]
  rw [submit_bind]
  rintro p rfl
  refine ⟨⟨nofun, fun reply _ => ?_⟩, fun reply _ => ?_⟩
  · cases reply with
    | error e => rwa [failed]
    | ok resp =>
      rw [returned]
      exact next _
  · cases reply with
    | error e => exact meets_error e
    | ok resp =>
      show Meets (handling h) (Leaves post) (f resp) (p.after ⟨.submit request, .ok resp⟩)
      rw [returned]
      exact hf resp

end Rules

section Handlers

variable {h : HostRequest} {p : Handling} {vars : LoopState}

/-- The read returns what it has taken of the data stage. -/
theorem handling_ep0Read (stage : Stage h p)
    (next : Stage h ⟨p.answered, p.shown ++ [.acknowledged]⟩) (buf : List UInt8) :
    Meets (handling h) (Leaves fun read p' => p' = ⟨p.answered, p.shown ++ [.acknowledged]⟩ ∧
      read.2.take read.1 = h.sent.take (ep0ReadLen buf.length)) (ep0Read buf) p := by
  refine handling_rawIoctl rfl stage next fun reply succeeds feeds => handling_ok ⟨rfl, ?_⟩
  obtain ⟨written, amount⟩ := feeds succeeds
  have small : ep0ReadLen buf.length ≤ ep0BufSize := Nat.min_le_right ..
  have asked : (ep0Header (ep0ReadLen buf.length)).length.toNat = ep0ReadLen buf.length :=
    UInt32.toNat_ofNat_of_lt' (Nat.lt_of_le_of_lt small (by decide))
  rw [asked] at written
  have length : reply.written.length ≤ ep0ReadLen buf.length := by
    rw [written]
    exact List.length_take_le ..
  have n : min reply.ret.toNatClampNeg (ep0ReadLen buf.length) = reply.written.length := by
    rw [amount]
    exact Nat.min_eq_left length
  simp only [copyRead, n, ← written]
  rw [List.take_left']
  · rw [overwrite, List.take_take, List.length_replicate, Nat.min_eq_left (length.trans small),
      List.take_left]
  · rw [List.length_take, length_overwrite, List.length_replicate]
    exact Nat.min_eq_left (length.trans small)

theorem handling_ep0Stall (stage : Stage h p)
    (next : Stage h ⟨p.answered, p.shown ++ [.stalled]⟩) :
    Meets (handling h) (Leaves fun _ p' => p' = ⟨p.answered, p.shown ++ [.stalled]⟩) ep0Stall p :=
  handling_rawIoctl rfl stage next fun _ _ _ => handling_ok rfl

theorem handling_ep0Write {data : List UInt8} (stage : Stage h p)
    (next : Stage h ⟨p.answered, p.shown ++ [.data data]⟩) :
    Meets (handling h) (Leaves fun _ p' => p' = ⟨p.answered, p.shown ++ [.data data]⟩)
      (ep0Write data) p := by
  unfold ep0Write
  split
  · exact meets_error _
  · next fits =>
    have whole := take_ep0WriteBuf (Nat.le_of_not_lt fits)
    refine handling_rawIoctl ?_ stage next fun _ _ _ => handling_ok rfl
    rw [Ioctl.outcome, whole]

theorem handling_activate {o : ControlOutcome} (other : ¬ h.ctrl.IsSetAddress)
    (direct : ¬ h.ctrl.SendsData) (accepted : o = .acknowledged) (configData : List UInt8) :
    Meets (handling h) (Leaves fun _ => Finished h) (activate configData) ⟨[h.ends o], []⟩ := by
  subst accepted
  have aside (call : Ioctl) (other : ∀ buf, call ≠ .eventFetch buf) (none : call.outcome = none) :
      Aside (.ioctl call) :=
    ⟨fun buf same => other buf (Op.ioctl.inj same), nofun,
      fun _ same => Op.ioctl.inj same ▸ none⟩
  have stage : Stage h ⟨[h.ends .acknowledged], []⟩ := .answered other direct
  have finished : Finished h ⟨[h.ends .acknowledged], [.acknowledged]⟩ := .relayed other direct
  have enables := uses_enableEndpoints (P := Aside) (fun desc => aside _ nofun rfl)
    (parseEndpointDescriptors configData)
  refine Meets.seq (handling_aside enables stage) ?_
  rintro handles _ rfl
  have draws := uses_drawPower (P := Aside) (fun power => aside _ nofun rfl) configData
  refine Meets.seq (handling_aside draws stage) ?_
  rintro _ _ rfl
  refine Meets.seq (handling_aside (uses_configure (aside _ nofun rfl)) stage) ?_
  rintro _ _ rfl
  refine Meets.seq (handling_ep0Read stage (.finished finished) []) ?_
  rintro _ _ ⟨rfl, _⟩
  have spawns := uses_spawnEpThreads (P := Aside) (fun _ => ⟨nofun, nofun, nofun⟩)
    ((parseEndpointDescriptors configData).zipWith Worker.mk handles)
  refine Meets.weaken (handling_aside spawns (.finished finished)) ?_
  rintro _ _ rfl
  exact finished

theorem not_sendsData_of_dispatch (found : dispatch h.ctrl = .controlIn ∨
    dispatch h.ctrl = .setConfiguration ∨ dispatch h.ctrl = .controlOutNoData) :
    ¬ h.ctrl.SendsData := by
  rintro ⟨out, sends⟩
  rcases found with found | found
  · exact out (isIn_of_dispatch found)
  · rw [UInt16.lt_iff_toNat_lt, noData_of_dispatch found] at sends
    exact absurd sends (by decide)

theorem not_setAddress_of_dispatch (found : dispatch h.ctrl ≠ .setAddress) :
    ¬ h.ctrl.IsSetAddress :=
  fun address => found ((dispatch_setAddress_iff h.ctrl).mpr address.2)

/-- A request that sends no data is submitted as it is. -/
theorem transfer_of_direct (direct : ¬ h.ctrl.SendsData) (direction : Direction) (length : UInt32)
    (resp : RetSubmit) : (controlRequest h.ctrl direction [] length).args.transfer resp =
      h.ends (resp.outcome h.ctrl) := by
  rw [transfer_controlRequest, HostRequest.ends, HostRequest.sent_eq_nil direct]

/-- A stall passes on that of the device. -/
theorem handling_refused {resp : RetSubmit} (other : ¬ h.ctrl.IsSetAddress)
    (direct : ¬ h.ctrl.SendsData) (refused : resp.status ≠ 0) :
    Meets (handling h) (Leaves fun _ => Finished h) ep0Stall
      ⟨[h.ends (resp.outcome h.ctrl)], []⟩ := by
  have stalled : resp.outcome h.ctrl = .stalled := if_pos refused
  have finished : Finished h ⟨[h.ends (resp.outcome h.ctrl)], [.stalled]⟩ :=
    stalled ▸ .relayed other direct
  refine Meets.weaken (handling_ep0Stall (.answered other direct) (.finished finished)) ?_
  rintro _ _ rfl
  exact finished

theorem handling_setAddress (regular : h.Regular) (found : dispatch h.ctrl = .setAddress) :
    Meets (handling h) (Leaves fun _ => Finished h) (handleControl h.ctrl vars) ⟨[], []⟩ := by
  rw [handleControl_of_setAddress found]
  have address := (regular.address ((dispatch_setAddress_iff h.ctrl).mp found)).1
  refine Meets.seq (handling_ep0Read .fetched (.finished (.address address)) []) ?_
  rintro _ _ ⟨rfl, _⟩
  exact handling_ok (.address address)

theorem handling_setConfiguration (found : dispatch h.ctrl = .setConfiguration) :
    Meets (handling h) (Leaves fun _ => Finished h) (handleControl h.ctrl vars) ⟨[], []⟩ := by
  rw [handleControl_of_setConfiguration found]
  have other := not_setAddress_of_dispatch (h := h) (by simp [found])
  have direct := not_sendsData_of_dispatch (h := h) (.inr (.inl found))
  have out := isOut_of_dispatch (.inl found)
  refine Meets.seq (Q := fun _ => Finished h) (handling_submit (transfer_of_direct direct _ _)
    .fetched (fun _ => .answered other direct) fun resp => ?_) fun _ _ done => handling_ok done
  split
  · next refused =>
    exact Meets.seq (handling_refused other direct refused) fun _ _ done => handling_ok done
  · next accepted =>
    cases vars.cachedConfigDesc with
    | none => exact meets_error _
    | some configData =>
      refine handling_activate other direct ?_ configData
      rw [RetSubmit.outcome, if_neg accepted, if_neg out]

theorem handling_controlIn (found : dispatch h.ctrl = .controlIn) :
    Meets (handling h) (Leaves fun _ => Finished h) (handleControl h.ctrl vars) ⟨[], []⟩ := by
  rw [handleControl_of_controlIn found]
  have other := not_setAddress_of_dispatch (h := h) (by simp [found])
  have direct := not_sendsData_of_dispatch (h := h) (.inl found)
  have isIn := isIn_of_dispatch found
  refine Meets.seq (Q := fun _ => Finished h) (handling_submit (transfer_of_direct direct _ _)
    .fetched (fun _ => .answered other direct) fun resp => ?_) fun _ _ done => handling_ok done
  split
  · next success =>
    have data : resp.outcome h.ctrl = .data resp.data := by
      rw [RetSubmit.outcome, if_neg (not_not.mpr success), if_pos isIn]
    have finished : Finished h ⟨[h.ends (resp.outcome h.ctrl)], [.data resp.data]⟩ :=
      data ▸ .relayed other direct
    refine Meets.seq (handling_ep0Write (.answered other direct) (.finished finished)) ?_
    rintro _ _ rfl
    exact handling_ok finished
  · next refused =>
    exact Meets.seq (handling_refused other direct refused) fun _ _ done => handling_ok done

theorem handling_outWithData (regular : h.Regular)
    (found : dispatch h.ctrl = .controlOutWithData) :
    Meets (handling h) (Leaves fun _ => Finished h) (handleControl h.ctrl vars) ⟨[], []⟩ := by
  rw [handleControl_of_outWithData found]
  have other := not_setAddress_of_dispatch (h := h) (by simp [found])
  have sends : h.ctrl.SendsData := by
    cases dispatch_cases found with
    | controlOutWithData _ out data => exact ⟨out, data⟩
  refine Meets.seq (Q := fun _ => Finished h) ?_ fun _ _ done => handling_ok done
  refine Meets.seq (handling_ep0Read .fetched (.early other sends) _) ?_
  rintro ⟨n, buf⟩ _ ⟨rfl, taken⟩
  -- the buffer has room for all that the host sends
  have whole : buf.take n = h.sent := by
    have staged := h.staged
    rw [if_pos sends] at staged
    rw [taken, List.length_replicate, ← staged, ep0ReadLen,
      Nat.min_eq_left regular.fits, List.take_length]
  dsimp only
  rw [whole]
  refine handling_submit (fun resp => ?_) (.early other sends)
    (fun _ => .finished (.accepted other sends)) fun _ => handling_ok (.accepted other sends)
  rw [transfer_controlRequest, HostRequest.ends]

theorem handling_outNoData (found : dispatch h.ctrl = .controlOutNoData) :
    Meets (handling h) (Leaves fun _ => Finished h) (handleControl h.ctrl vars) ⟨[], []⟩ := by
  rw [handleControl_of_outNoData found]
  have other := not_setAddress_of_dispatch (h := h) (by simp [found])
  have direct := not_sendsData_of_dispatch (h := h) (.inr (.inr found))
  have out := isOut_of_dispatch (.inr (.inr found))
  refine Meets.seq (Q := fun _ => Finished h) (handling_submit (transfer_of_direct direct _ _)
    .fetched (fun _ => .answered other direct) fun resp => ?_) fun _ _ done => handling_ok done
  split
  · next success =>
    have acknowledged : resp.outcome h.ctrl = .acknowledged := by
      rw [RetSubmit.outcome, if_neg (not_not.mpr success), if_neg out]
    have finished : Finished h ⟨[h.ends (resp.outcome h.ctrl)], [.acknowledged]⟩ :=
      acknowledged ▸ .relayed other direct
    refine Meets.seq (handling_ep0Read (.answered other direct) (.finished finished) _) ?_
    rintro _ _ ⟨rfl, _⟩
    exact handling_ok finished
  · next refused => exact handling_refused other direct refused

/-- A request is settled when its handler returns. -/
theorem handling_handleControl (regular : h.Regular) (vars : LoopState) :
    Meets (handling h) (Leaves fun _ => Finished h) (handleControl h.ctrl vars) ⟨[], []⟩ := by
  cases found : dispatch h.ctrl with
  | setAddress => exact handling_setAddress regular found
  | setConfiguration => exact handling_setConfiguration found
  | controlIn => exact handling_controlIn found
  | controlOutWithData => exact handling_outWithData regular found
  | controlOutNoData => exact handling_outNoData found

end Handlers

/-! ## Iterations -/

/-- While one request is handled the host sees its outcomes and nothing else. -/
theorem HostRun.handled {α : Type} {post : Except IoError α → Handling → Prop}
    {q rest : Routine α} {es : Trace} {requests : List HostRequest} {seen : List Transfer}
    {h : HostRequest} {host : Host} {p : Handling}
    (view : HostRun ⟨requests ++ [h], seen⟩ es host) (run : After q es rest)
    (meets : Meets (handling h) post q p) (stage : Stage h p) :
    host = ⟨requests ++ [h], seen ++ (outcomes es).map h.ends⟩ ∧
      Stage h ⟨p.answered ++ transfers es, p.shown ++ outcomes es⟩ ∧
      Meets (handling h) post rest ⟨p.answered ++ transfers es, p.shown ++ outcomes es⟩ := by
  induction run generalizing p seen with
  | nil =>
    cases view
    simp only [outcomes, transfers_nil, List.filterMap_nil, List.map_nil, List.append_nil]
    exact ⟨trivial, stage, meets⟩
  | @cons o k reply es rest _ ih =>
    obtain ⟨⟨fetches, next⟩, continues⟩ := meets p rfl
    have split : outcomes (⟨o, reply⟩ :: es) = outcomes [⟨o, reply⟩] ++ outcomes es :=
      List.filterMap_append (l := [_])
    have both : transfers (⟨o, reply⟩ :: es) = transfers [⟨o, reply⟩] ++ transfers es :=
      transfers_append [_] es
    rw [split, both, List.map_append]
    simp only [← List.append_assoc]
    have last {before : List HostRequest} {h' : HostRequest}
        (same : requests ++ [h] = before ++ [h']) : h' = h := by
      have tails := (List.append_inj' same rfl).2
      exact (List.singleton_inj.mp tails).symm
    cases view with
    | cons first later =>
      cases first with
      | requested fetched =>
        cases o with
        | ioctl call =>
          cases call with
          | eventFetch buf => exact absurd rfl (fetches buf)
          | _ => cases fetched
        | _ => cases fetched
      | @completed _ h' outcome same ended feeds =>
        obtain rfl := last same
        have one : outcomes [⟨o, reply⟩] = [outcome] := List.filterMap_cons_some ended
        have later : HostRun ⟨requests ++ [h'], seen ++ (outcomes [⟨o, reply⟩]).map h'.ends⟩ es
            host := by
          rw [one]
          exact later
        exact ih later (continues reply feeds) (next reply feeds)
      | other _ none =>
        have silent : outcomes [⟨o, reply⟩] = [] := List.filterMap_cons_none none
        have feeds : Feeds h.sent ⟨o, reply⟩ := feeds_of_none none
        have later : HostRun ⟨requests ++ [h], seen ++ (outcomes [⟨o, reply⟩]).map h.ends⟩ es
            host := by
          rw [silent]
          simpa using later
        exact ih later (continues reply feeds) (next reply feeds)

/-- A trace that has nothing to do with control requests. -/
theorem HostRun.idle {α : Type} {q rest : Routine α} {es : Trace} {g host : Host}
    (view : HostRun g es host) (run : After q es rest) (aside : Uses Aside q) :
    host = g ∧ transfers es = [] := by
  induction run generalizing g with
  | nil =>
    cases view
    exact ⟨rfl, rfl⟩
  | @cons o k reply es rest _ ih =>
    obtain ⟨here, later⟩ := aside
    have silent := here.outcomes reply
    have quiet : transfers (⟨o, reply⟩ :: es) = transfers es := by
      have both := transfers_append [⟨o, reply⟩] es
      rwa [transfers_of_notSubmit here.submits, List.nil_append] at both
    rw [quiet]
    cases view with
    | cons first tail =>
      cases first with
      | requested fetched =>
        cases o with
        | ioctl call =>
          cases call with
          | eventFetch buf => exact absurd rfl (here.fetches buf)
          | _ => cases fetched
        | _ => cases fetched
      | completed _ ended =>
        rw [outcomes, List.filterMap_cons_some ended] at silent
        cases silent
      | other => exact ih tail (later reply)

/-- What the host has been shown in one iteration, as far as that has come. -/
inductive Current (g : Host) (es : Trace) (rest : Routine LoopState) : Host → Prop
  | idle (quiet : transfers es = []) : Current g es rest g
  | handling {h : HostRequest} (regular : h.Regular)
      (stage : Stage h ⟨transfers es, outcomes es⟩)
      (settled : ∀ vars, rest = .done (.ok vars) → Finished h ⟨transfers es, outcomes es⟩) :
      Current g es rest ⟨g.requests ++ [h], g.seen ++ (outcomes es).map h.ends⟩

theorem current_of_after {vars : LoopState} {es : Trace} {rest : Routine LoopState}
    {g host : Host} (run : After (mainLoop vars) es rest) (view : HostRun g es host)
    (regular : ∀ h ∈ host.requests, h.Regular) : Current g es rest host := by
  rw [mainLoop_eq] at run
  rcases after_op_iff.mp run with ⟨rfl, rfl⟩ | ⟨reply, tail, rfl, later⟩
  · cases view
    exact .idle rfl
  · have silent : transfers (⟨.ioctl (.eventFetch eventFetchBuf), reply⟩ :: tail) =
        transfers tail := transfers_append [_] tail
    have unseen : outcomes (⟨.ioctl (.eventFetch eventFetchBuf), reply⟩ :: tail) =
        outcomes tail := by
      refine List.filterMap_cons_none ?_
      simp [completes, Ioctl.outcome]
    cases view with
    | cons first others =>
      by_cases failed : reply.ret < 0
      · rw [if_pos failed] at later
        obtain ⟨rfl, rfl⟩ := after_done_iff.mp later
        cases others
        cases first with
        | requested fetched => simp [eventOf, IoctlReply.Succeeds, failed] at fetched
        | completed _ ended => simp [completes, Ioctl.outcome] at ended
        | other => exact .idle rfl
      · rw [if_neg failed] at later
        have hevent : eventOf [⟨.ioctl (.eventFetch eventFetchBuf), reply⟩] =
            some (.ofBuf (overwrite eventFetchBuf reply.written)) := if_pos failed
        cases first with
        | @requested h fetched =>
          rw [hevent, Option.some.injEq] at fetched
          rw [fetched] at later
          have here : h.Regular :=
            regular h (others.requests_subset (List.mem_append_right _ List.mem_cons_self))
          obtain ⟨rfl, stage, meets⟩ := others.handled later (handling_handleControl here vars)
            .fetched
          rw [← unseen, ← silent] at stage meets
          rw [← unseen]
          refine .handling here stage fun vars' returned => ?_
          rw [returned] at meets
          exact meets _ rfl
        | completed _ ended => simp [completes, Ioctl.outcome] at ended
        | other fetches =>
          have aside : Uses Aside (handleEvent (.ofBuf (overwrite eventFetchBuf reply.written))
              vars) := by
            cases event : Event.ofBuf (overwrite eventFetchBuf reply.written) with
            | control ctrl => exact absurd (hevent.trans (congrArg some event)) (fetches ctrl)
            | disconnect | reset =>
              have joins (thread : ThreadId) : Aside (.join thread) :=
                ⟨by rintro _ ⟨⟩, by rintro _ ⟨⟩, by rintro _ ⟨⟩⟩
              exact (uses_joinAll joins _).bind fun _ => trivial
            | connect | suspend | resume | unknown => trivial
          obtain ⟨rfl, quiet⟩ := others.idle later aside
          exact .idle (silent.trans quiet)

section Presents

variable {σ : Type} {D : Device σ} {d d' t t' : σ}

/-- What the host has seen of a settled request is what the presented device does. -/
theorem Finished.presented {h : HostRequest} {p : Handling} (finished : Finished h p)
    (regular : h.Regular) (answers : D.Shows t p.answered t') :
    ∃ outcome, p.shown = [outcome] ∧ D.presented.control t (h.ends outcome) t' := by
  cases finished with
  | address address =>
    obtain rfl := Device.shows_nil.mp answers
    have none : ¬ h.ctrl.SendsData := by
      rintro ⟨_, sends⟩
      rw [(regular.address address.2).2] at sends
      exact absurd sends (by decide)
    refine ⟨_, rfl, ?_⟩
    simp [Device.presented, HostRequest.ends, address, HostRequest.sent_eq_nil none]
  | relayed other direct =>
    have control := Device.shows_singleton.mp answers
    refine ⟨_, rfl, ?_⟩
    simpa [Device.presented, HostRequest.ends, other, direct] using control
  | accepted other sends =>
    have control := Device.shows_singleton.mp answers
    refine ⟨_, rfl, ?_⟩
    simp only [Device.presented, HostRequest.ends, if_neg other, if_pos sends]
    exact ⟨trivial, _, control⟩

/-- A completed iteration. -/
theorem Current.presented {g host : Host} {es : Trace} {vars : LoopState}
    (current : Current g es (.done (.ok vars)) host) (earlier : g.Settled)
    (answers : D.Shows t (transfers es) t') :
    host.Settled ∧ ∃ xs, host.seen = g.seen ++ xs ∧ D.presented.Shows t xs t' := by
  cases current with
  | idle quiet =>
    rw [quiet] at answers
    obtain rfl := Device.shows_nil.mp answers
    exact ⟨earlier, [], (List.append_nil _).symm, .nil⟩
  | @handling h regular _ settled =>
    obtain ⟨outcome, shown, control⟩ := (settled vars rfl).presented regular answers
    have shown : outcomes es = [outcome] := shown
    rw [shown]
    exact ⟨earlier.snoc h outcome, [h.ends outcome], rfl, Device.shows_singleton.mpr control⟩

theorem iterates_shows {ess : List Trace} {vars : LoopState} {host : Host}
    (history : Iterates mainLoop ⟨none, []⟩ ess vars) (view : HostRun ⟨[], []⟩ ess.flatten host)
    (regular : ∀ h ∈ host.requests, h.Regular) (answers : D.Shows d (transfers ess.flatten) t) :
    host.Settled ∧ D.presented.Shows d host.seen t := by
  induction history generalizing host t with
  | start =>
    cases view
    obtain rfl := Device.shows_nil.mp answers
    exact ⟨⟨[], rfl, rfl⟩, .nil⟩
  | @next ess es vars _ _ run ih =>
    rw [List.flatten_append, List.flatten_singleton] at view answers
    rw [transfers_append] at answers
    obtain ⟨before, first, last⟩ := view.split
    obtain ⟨r, earlier, now⟩ := answers.split
    obtain ⟨settled, shows⟩ := ih first (fun h mem => regular h (last.requests_subset mem)) earlier
    obtain ⟨settled, xs, seen, shown⟩ :=
      (current_of_after run last regular).presented settled now
    refine ⟨settled, ?_⟩
    rw [seen]
    exact shows.append shown

/-- The host has seen the presented device in the iterations `before` the current one,
which has made `host` of what it has seen. -/
structure Presents (D : Device σ) (d t : σ) (before host : Host) (es : Trace)
    (rest : Routine LoopState) : Prop where
  settled : before.Settled
  shows : D.presented.Shows d before.seen t
  plain : D.Plain → D.Shows d before.seen t
  current : Current before es rest host

theorem presents_of_history {ess : List Trace} {es : Trace} {vars : LoopState}
    {rest : Routine LoopState} {host : Host} (history : Iterates mainLoop ⟨none, []⟩ ess vars)
    (run : After (mainLoop vars) es rest) (view : HostRun ⟨[], []⟩ (ess.flatten ++ es) host)
    (regular : ∀ h ∈ host.requests, h.Regular)
    (answers : D.Shows d (transfers (ess.flatten ++ es)) d') : ∃ before t,
      HostRun ⟨[], []⟩ ess.flatten before ∧ D.Shows d (transfers ess.flatten) t ∧
        Presents D d t before host es rest ∧ D.Shows t (transfers es) d' := by
  obtain ⟨before, first, last⟩ := view.split
  rw [transfers_append] at answers
  obtain ⟨t, earlier, now⟩ := answers.split
  obtain ⟨settled, shows⟩ :=
    iterates_shows history first (fun h mem => regular h (last.requests_subset mem)) earlier
  exact ⟨before, t, first, earlier, ⟨settled, shows, fun plain => (plain.shows_iff _).mp shows,
    current_of_after run last regular⟩, now⟩

/-- Over any history of the event loop, wherever it stands and also where it has
ended, and for any requests of the host that the bridge can treat properly: if what
has been answered to its URBs are the answers of some device, then what the host has
seen is the presented device. Each request of an earlier iteration has one outcome,
the outcomes are those of that device, and both devices are then in the same state.
The current request has one outcome at most, which it is given before its URB is
answered only if it is one of the two exceptions. A device to which the exceptions
make no difference is seen as it is. -/
theorem host_sees_presented {ess : List Trace} {es : Trace} {vars : LoopState}
    {rest : Routine LoopState} {host : Host} (history : Iterates mainLoop ⟨none, []⟩ ess vars)
    (run : After (mainLoop vars) es rest) (view : HostRun ⟨[], []⟩ (ess.flatten ++ es) host)
    (regular : ∀ h ∈ host.requests, h.Regular)
    (answers : D.Shows d (transfers (ess.flatten ++ es)) d') : ∃ before t,
      HostRun ⟨[], []⟩ ess.flatten before ∧ D.Shows d (transfers ess.flatten) t ∧
        Presents D d t before host es rest ∧ D.Shows t (transfers es) d' :=
  presents_of_history history run view regular answers

end Presents

/-! ### A keyboard with lights -/

/-- A test for `Feeds`. -/
def takesStage (sent : List UInt8) : Program.Event Reply → Bool
  | ⟨.ioctl (.ep0Read header), reply⟩ => decide (reply.Succeeds →
      reply.written = sent.take header.length.toNat ∧
        reply.ret.toNatClampNeg = reply.written.length)
  | _ => true

theorem feeds_of_takesStage {sent : List UInt8} {e : Program.Event Reply}
    (takes : takesStage sent e = true) : Feeds sent e := by
  obtain ⟨o, reply⟩ := e
  cases o with
  | ioctl call =>
    cases call with
    | ep0Read header =>
      simp only [takesStage, decide_eq_true_eq] at takes
      exact takes
    | _ => trivial
  | _ => trivial

/-- The control request that an operation fetches. -/
def requested (e : Program.Event Reply) : Option UsbCtrlRequest :=
  match eventOf [e] with
  | some (.control ctrl) => some ctrl
  | _ => none

theorem requested_eq_some {e : Program.Event Reply} {ctrl : UsbCtrlRequest} :
    requested e = some ctrl ↔ eventOf [e] = some (.control ctrl) := by
  unfold requested
  split
  · next fetched => simp [fetched]
  · next other =>
    constructor
    · rintro ⟨⟩
    · exact fun fetched => absurd fetched (other ctrl)

/-- What a host with these requests left sees of a trace, if it fits them. -/
def hostView : List HostRequest → Host → Trace → Option Host
  | _, g, [] => some g
  | todo, g, e :: es =>
    match requested e, todo with
    | some ctrl, h :: todo =>
      if h.ctrl = ctrl then hostView todo { g with requests := g.requests ++ [h] } es else none
    | some _, [] => none
    | none, todo =>
      match completes e, g.requests.getLast? with
      | none, _ => hostView todo g es
      | some outcome, some h =>
        if takesStage h.sent e then hostView todo { g with seen := g.seen ++ [h.ends outcome] } es
        else none
      | some _, none => none

theorem hostRun_of_view {todo : List HostRequest} {g host : Host} {es : Trace}
    (h : hostView todo g es = some host) : HostRun g es host := by
  induction es generalizing todo g with
  | nil =>
    obtain rfl := Option.some.inj h
    exact .nil
  | cons e es ih =>
    unfold hostView at h
    split at h
    · next fetched =>
      split at h
      · next same =>
        subst same
        exact .cons (.requested (requested_eq_some.mp fetched)) (ih h)
      · cases h
    · cases h
    · next none =>
      have fetches : ∀ ctrl, eventOf [e] ≠ some (.control ctrl) := fun ctrl fetched => by
        cases none.symm.trans (requested_eq_some.mpr fetched)
      split at h
      · next silent => exact .cons (.other fetches silent) (ih h)
      · next ended last =>
        split at h
        · next takes =>
          obtain ⟨before, same⟩ := List.getLast?_eq_some_iff.mp last
          exact .cons (.completed same ended (feeds_of_takesStage takes)) (ih h)
        · cases h
      · cases h

instance (h : HostRequest) : Decidable h.Regular :=
  decidable_of_iff
    ((h.ctrl.bRequest = usbReqSetAddress → h.ctrl.IsSetAddress ∧ h.ctrl.wLength = 0) ∧
      h.sent.length ≤ ep0BufSize)
    ⟨fun h => ⟨h.1, h.2⟩, fun h => ⟨h.address, h.fits⟩⟩

/-- Its state is the last report that it was sent. -/
def keyboard : Device (List UInt8) where
  control lights x lights' :=
    x.outcome = (if x.ctrl.IsIn then .data System.configDescriptor else .acknowledged) ∧
      lights' = if x.ctrl.SendsData then x.sent else lights

/-- The kernel passes on this request, and the remote device answers with `data`. -/
def conveying (h : HostRequest) (data : List UInt8) : ∀ o, Reply o
  | .ioctl (.ep0Read header) =>
    let taken := h.sent.take header.length.toNat
    ⟨Int32.ofNat taken.length, 0, taken⟩
  | o => serving h.ctrl data o

/-- The host is gone when it is to be given the reply. -/
def departing (h : HostRequest) (data : List UInt8) : ∀ o, Reply o
  | .ioctl (.ep0Write ..) => ⟨-1, 108, []⟩
  | o => conveying h data o

def setAddress : HostRequest := ⟨⟨0x00, 0x05, 7, 0, 0⟩, [], rfl⟩

def readDescriptor : HostRequest := ⟨System.getConfigDescriptor 25, [], rfl⟩

def readHeader : HostRequest := ⟨System.getConfigDescriptor 9, [], rfl⟩

def selectConfiguration : HostRequest := ⟨System.setConfiguration, [], rfl⟩

/-- SET_REPORT with one byte. -/
def lightReport : HostRequest := ⟨⟨0x21, 0x09, 0x0200, 0, 1⟩, [2], rfl⟩

def conveyed (h : HostRequest) (data : List UInt8) (vars : LoopState) : Trace :=
  ((mainLoop vars).answer (conveying h data)).1

theorem runs_conveyed {h : HostRequest} {data : List UInt8} {vars vars' : LoopState}
    (result : ((mainLoop vars).answer (conveying h data)).2 = .ok vars') :
    Runs (mainLoop vars) (conveyed h data vars) (.ok vars') :=
  result ▸ runs_answer _ _

/-- The host sets up the keyboard and switches a light on. -/
def enumeration : List Trace :=
  [conveyed setAddress [] ⟨none, []⟩,
    conveyed readDescriptor System.configDescriptor ⟨none, []⟩,
    conveyed selectConfiguration [] ⟨some System.configDescriptor, []⟩,
    conveyed lightReport [] ⟨some System.configDescriptor, [0]⟩]

/-- Then it asks for the descriptor once more. -/
def interrupted : Trace := ((mainLoop ⟨some System.configDescriptor, [0]⟩).answer
  (departing readDescriptor System.configDescriptor)).1

theorem enumeration_iterates :
    Iterates mainLoop ⟨none, []⟩ enumeration ⟨some System.configDescriptor, [0]⟩ := by
  have address : Iterates mainLoop ⟨none, []⟩ (enumeration.take 1) ⟨none, []⟩ :=
    .next .start (runs_conveyed (by decide +kernel))
  have read : Iterates mainLoop ⟨none, []⟩ (enumeration.take 2)
      ⟨some System.configDescriptor, []⟩ := address.next (runs_conveyed (by decide +kernel))
  have selected : Iterates mainLoop ⟨none, []⟩ (enumeration.take 3)
      ⟨some System.configDescriptor, [0]⟩ := read.next (runs_conveyed (by decide +kernel))
  exact selected.next (runs_conveyed (by decide +kernel))

/-- All requests but the last have come to an end, and the light is on. -/
theorem host_sees_presented_keyboard : ∃ before host, host.requests.length = 5 ∧
    host.seen.length = 4 ∧ Presents keyboard [] [2] before host interrupted
      (.done (.error (lastOsError 108))) := by
  have run : Runs (mainLoop ⟨some System.configDescriptor, [0]⟩) interrupted
      (.error (lastOsError 108)) := by
    have result : ((mainLoop ⟨some System.configDescriptor, [0]⟩).answer
        (departing readDescriptor System.configDescriptor)).2 = .error (lastOsError 108) := by
      decide +kernel
    exact result ▸ runs_answer _ _
  obtain ⟨host, view, found⟩ := (Option.any_eq_true _ _).mp (show (hostView
      [setAddress, readDescriptor, selectConfiguration, lightReport, readDescriptor] ⟨[], []⟩
      (enumeration.flatten ++ interrupted)).any (fun host => decide (host.requests.length = 5 ∧
        host.seen.length = 4 ∧ ∀ h ∈ host.requests, h.Regular)) = true by decide +kernel)
  obtain ⟨five, four, regular⟩ := of_decide_eq_true found
  have answers : keyboard.Shows [] (transfers (enumeration.flatten ++ interrupted)) [2] := by
    have exchanged : transfers (enumeration.flatten ++ interrupted) =
        [readDescriptor.ends (.data System.configDescriptor),
          selectConfiguration.ends .acknowledged, lightReport.ends .acknowledged,
          readDescriptor.ends (.data System.configDescriptor)] := by decide +kernel
    rw [exchanged]
    have asked : keyboard.Shows [] [readDescriptor.ends (.data System.configDescriptor),
        selectConfiguration.ends .acknowledged] [] :=
      .cons (And.intro rfl rfl) (.cons (And.intro rfl rfl) .nil)
    have told : keyboard.Shows [] [lightReport.ends .acknowledged,
        readDescriptor.ends (.data System.configDescriptor)] [2] :=
      .cons (And.intro rfl rfl) (.cons (And.intro rfl rfl) .nil)
    exact asked.append told
  obtain ⟨before, t, _, _, presents, last⟩ :=
    host_sees_presented enumeration_iterates run (hostRun_of_view view) regular answers
  have one : transfers interrupted = [readDescriptor.ends (.data System.configDescriptor)] := by
    decide +kernel
  rw [one] at last
  obtain rfl : [2] = t := (Device.shows_singleton.mp last).2
  exact ⟨before, host, five, four, presents⟩

end UsbipDevirt
