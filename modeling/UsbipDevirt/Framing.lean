import UsbipDevirt.Control
import UsbipDevirt.System

/-!
# The command stream

A server that reads the stream of commands knows only from a header how many
bytes of payload follow. It finds every header if each CMD_SUBMIT for an OUT
transfer announces as many bytes as it carries. The event loop announces
`wLength` and carries what `ep0_read` returned.
-/

namespace UsbipDevirt

open Program Program.Prog RawGadgetDevice

/-! ## A server reading commands -/

/-- How many bytes a server expects after this header. -/
def CmdSubmitHeader.follows (header : CmdSubmitHeader) : ℕ :=
  if header.command = usbipCmdSubmit ∧ header.direction = Direction.out.toUInt32 then
    header.transferBufferLength.toNat
  else 0

/-- The next command on the stream, with its payload, and what comes after it. -/
def takeCommand (bytes : List UInt8) : Option ((CmdSubmitHeader × List UInt8) × List UInt8) :=
  let header := CmdSubmitHeader.format.get (bytes.take 48)
  if 48 + header.follows ≤ bytes.length then
    some ((header, (bytes.drop 48).take header.follows), (bytes.drop 48).drop header.follows)
  else none

/-- The server reads these commands and has nothing left. -/
inductive TakesAll : List UInt8 → List (CmdSubmitHeader × List UInt8) → Prop
  | nil : TakesAll [] []
  | cons {bytes rest cmd cmds} (head : takeCommand bytes = some (cmd, rest))
      (tail : TakesAll rest cmds) : TakesAll bytes (cmd :: cmds)

/-- The length in the header is the length of the payload. -/
def SubmitArgs.Framed (args : SubmitArgs) : Prop :=
  args.direction = .out → args.transferBufferLength.toNat = args.data.length

theorem SubmitArgs.header_follows (args : SubmitArgs) (seqnum devid : UInt32) :
    (args.header seqnum devid).follows =
      if args.direction = .out then args.transferBufferLength.toNat else 0 := by
  have out : args.direction.toUInt32 = Direction.out.toUInt32 ↔ args.direction = .out := by
    cases args.direction <;> decide
  simp [CmdSubmitHeader.follows, SubmitArgs.header, out]

theorem SubmitArgs.framed_iff (args : SubmitArgs) (seqnum devid : UInt32) :
    args.Framed ↔ (args.header seqnum devid).follows = args.payload.length := by
  rw [args.header_follows, SubmitArgs.Framed, SubmitArgs.payload]
  by_cases out : args.direction = .out <;> simp [out]

/-- The server gets a command as it was written if and only if it is framed,
and is then at the next one. -/
theorem takeCommand_encode_iff (args : SubmitArgs) (seqnum devid : UInt32)
    (after rest : List UInt8) :
    takeCommand ((Command.submit args).encode seqnum devid ++ after) =
      some ((args.header seqnum devid, args.payload), rest) ↔ args.Framed ∧ rest = after := by
  have bytes : (Command.submit args).encode seqnum devid ++ after =
      CmdSubmitHeader.format.put (args.header seqnum devid) ++ (args.payload ++ after) :=
    List.append_assoc ..
  have width := CmdSubmitHeader.format.length_put (args.header seqnum devid)
  have head :=
    CmdSubmitHeader.format.get_take_put (args.header seqnum devid) (args.payload ++ after)
  rw [CmdSubmitHeader.format_width] at width head
  rw [args.framed_iff seqnum devid, bytes]
  simp only [takeCommand, head, List.drop_left' width, List.length_append, width]
  constructor
  · intro h
    split at h
    · next enough =>
      simp only [Option.some.injEq, Prod.mk.injEq, true_and] at h
      obtain ⟨payload, rfl⟩ := h
      have same : (args.header seqnum devid).follows = args.payload.length := by
        have := congrArg List.length payload
        rw [List.length_take, List.length_append] at this
        omega
      rw [same]
      exact ⟨rfl, List.drop_left⟩
    · cases h
  · rintro ⟨same, rfl⟩
    rw [if_pos (by omega), same, List.take_left, List.drop_left]

/-- The server finds exactly the commands that were written if and only if each is framed. -/
theorem takesAll_iff (devid : UInt32) (cmds : List (UInt32 × SubmitArgs)) :
    TakesAll (cmds.flatMap fun (seqnum, args) => (Command.submit args).encode seqnum devid)
      (cmds.map fun (seqnum, args) => (args.header seqnum devid, args.payload)) ↔
    ∀ cmd ∈ cmds, cmd.2.Framed := by
  induction cmds with
  | nil => simp [TakesAll.nil]
  | cons cmd cmds ih =>
    simp only [List.flatMap_cons, List.map_cons, List.forall_mem_cons]
    constructor
    · intro h
      cases h with
      | cons head tail =>
        obtain ⟨framed, rfl⟩ := (takeCommand_encode_iff ..).mp head
        exact ⟨framed, ih.mp tail⟩
    · rintro ⟨framed, all⟩
      exact .cons ((takeCommand_encode_iff ..).mpr ⟨framed, rfl⟩) (ih.mpr all)

/-! ## Control transfers -/

/-- What `ep0_read` returns for the data stage of a request: the number of bytes
and the buffer. -/
def stageRead (ctrl : UsbCtrlRequest) (reply : IoctlReply) : ℕ × List UInt8 :=
  copyRead (List.replicate ctrl.wLength.toNat 0) ep0BufSize (ep0ReadLen ctrl.wLength.toNat) reply

/-- The data stage that the host has sent for the request of this iteration: up
to `wLength` bytes, of which `ep0_read` has delivered the first ones. -/
def StageSent (es : Trace) (stage : List UInt8) : Prop :=
  ∃ ctrl, eventOf es = some (.control ctrl) ∧ stage.length ≤ ctrl.wLength.toNat ∧
    ∀ header reply, ⟨.ioctl (.ep0Read header), reply⟩ ∈ es →
      (stageRead ctrl reply).2.take (stageRead ctrl reply).1 <+: stage

/-- A CMD_SUBMIT for this OUT request announces what it carries, and carries
whatever the host has sent. -/
structure Carries (request : UrbRequest) (sent : List UInt8 → Prop) : Prop where
  length : request.transferBufferLength.toNat = request.data.length
  complete : ∀ stage, sent stage → request.data = stage

/-- `ep0_read` returns the whole data stage of each OUT request with data. -/
def controlFraming : Contract Reply Trace where
  others es fs := fs = es
  replies es e := match e with
    | ⟨.ioctl _, reply⟩ => reply.Succeeds → ∀ ctrl, eventOf es = some (.control ctrl) →
      dispatch ctrl = .controlOutWithData → (stageRead ctrl reply).1 = ctrl.wLength.toNat
    | _ => True
  effect es e := es ++ [e]
  permits es o := ∀ request, o = .submit request → request.direction = .out →
    Carries request (StageSent es)
  others_refl _ := rfl
  others_trans h h' := h'.trans h

theorem length_stageRead (ctrl : UsbCtrlRequest) (reply : IoctlReply) :
    ((stageRead ctrl reply).2.take (stageRead ctrl reply).1).length = (stageRead ctrl reply).1 :=
  length_take_copyRead (Nat.min_le_right ..) _ _

/-- An OUT request with data is carried as the host sent it if and only if
`ep0_read` has returned `wLength` bytes, which it never does beyond 512. -/
theorem carries_outWithData_iff {ctrl : UsbCtrlRequest} {first : Program.Event Reply}
    {header : UsbRawEpIoHeader} {reply : IoctlReply}
    (event : eventOf [first] = some (.control ctrl)) :
    Carries (controlRequest ctrl .out ((stageRead ctrl reply).2.take (stageRead ctrl reply).1)
        ctrl.wLength.toUInt32) (StageSent [first, ⟨.ioctl (.ep0Read header), reply⟩]) ↔
      (stageRead ctrl reply).1 = ctrl.wLength.toNat := by
  have length := length_stageRead ctrl reply
  constructor
  · intro carries
    have announced : ctrl.wLength.toUInt32.toNat = _ := carries.length
    rw [UInt16.toNat_toUInt32] at announced
    exact (announced.trans length).symm
  · intro whole
    refine ⟨?_, ?_⟩
    · show ctrl.wLength.toUInt32.toNat = _
      rw [UInt16.toNat_toUInt32]
      exact (length.trans whole).symm
    · rintro stage ⟨ctrl', event', bound, reads⟩
      rw [eventOf_cons, event] at event'
      obtain rfl := Event.control.inj (Option.some.inj event')
      exact (reads header reply (by simp)).eq_of_length_le (by omega)

section Contract

variable {es : Trace}

/-- What submits nothing is in order. -/
theorem meets_of_notSubmit {α : Type} {p : Routine α} (quiet : Uses NotSubmit p) :
    Meets controlFraming (fun _ _ => True) p es :=
  Meets.of_uses (I := fun _ => True) quiet trivial (fun _ _ _ _ => trivial) fun _ _ _ ho =>
    ⟨fun request hop => absurd hop (ho request), fun _ _ => trivial⟩

theorem meets_submit {α : Type} {request : UrbRequest}
    {rest : Except IoError RetSubmit → Routine α}
    (carries : request.direction = .out → Carries request (StageSent es))
    (quiet : ∀ reply, Uses NotSubmit (rest reply)) :
    Meets controlFraming (fun _ _ => True) (.op (.submit request) rest) es := by
  rintro _ rfl
  refine ⟨?_, fun reply _ => meets_of_notSubmit (quiet reply)⟩
  rintro _ ⟨⟩
  exact carries

/-- Without a data stage, an OUT request carries nothing. -/
theorem carries_noData {ctrl : UsbCtrlRequest} (event : eventOf es = some (.control ctrl))
    (noData : ctrl.wLength.toNat = 0) :
    Carries (controlRequest ctrl .out [] 0) (StageSent es) := by
  refine ⟨rfl, ?_⟩
  rintro stage ⟨ctrl', event', length, -⟩
  obtain rfl := Event.control.inj (Option.some.inj (event.symm.trans event'))
  exact (List.length_eq_zero_iff.mp (by omega)).symm

theorem meets_handleControl {ctrl : UsbCtrlRequest} {first : Program.Event Reply}
    (event : eventOf [first] = some (.control ctrl)) (vars : LoopState) :
    Meets controlFraming (fun _ _ => True) (handleControl ctrl vars) [first] := by
  have submitted : dispatch ctrl = .controlIn ∨ dispatch ctrl = .setConfiguration ∨
      dispatch ctrl = .controlOutNoData →
      Meets controlFraming (fun _ _ => True) (handleControl ctrl vars) [first] := by
    intro h
    obtain ⟨rest, hrest, quiet⟩ := handleControl_submit vars h
    rw [hrest]
    refine meets_submit (fun out => ?_) quiet
    by_cases isIn : ctrl.IsIn
    · rw [if_pos isIn] at out
      cases out
    · rw [if_neg isIn]
      exact carries_noData event
        (noData_of_dispatch (h.resolve_left fun h => isIn (isIn_of_dispatch h)))
  cases h : dispatch ctrl with
  | setAddress =>
    rw [handleControl_of_setAddress h]
    exact meets_of_notSubmit ((uses_ep0Read (fun _ _ => by simp) _).bind fun _ => trivial)
  | controlIn => exact submitted (.inl h)
  | setConfiguration => exact submitted (.inr (.inl h))
  | controlOutNoData => exact submitted (.inr (.inr h))
  | controlOutWithData =>
    obtain ⟨rest, hrest, quiet⟩ := handleControl_outWithData vars h
    rw [hrest]
    simp only [ep0Read, rawIoctl_bind, op_bind, List.length_replicate]
    rintro _ rfl
    refine ⟨(by rintro _ ⟨⟩), fun reply whole => ?_⟩
    by_cases failed : reply.ret < 0
    · simp only [if_pos failed]
      exact fun _ _ => trivial
    · simp only [if_neg failed]
      refine meets_submit (fun _ => ?_) quiet
      exact (carries_outWithData_iff event).mpr (whole failed ctrl event h)

theorem meets_mainLoop_framing (vars : LoopState) :
    Meets controlFraming (fun _ _ => True) (mainLoop vars) [] := by
  rintro _ rfl
  refine ⟨(by rintro _ ⟨⟩), fun reply _ => ?_⟩
  by_cases failed : reply.ret < 0
  · simp only [if_pos failed]
    exact fun _ _ => trivial
  · simp only [if_neg failed]
    have event : eventOf [⟨.ioctl (.eventFetch eventFetchBuf), reply⟩] =
        some (.ofBuf (overwrite eventFetchBuf reply.written)) := if_pos failed
    show Meets _ _ (handleEvent (.ofBuf (overwrite eventFetchBuf reply.written)) vars) _
    cases h : Event.ofBuf (overwrite eventFetchBuf reply.written) with
    | connect | suspend | resume | unknown => exact fun _ _ => trivial
    | control ctrl => exact meets_handleControl (h ▸ event) vars
    | reset | disconnect =>
      exact meets_of_notSubmit ((uses_joinAll (fun _ _ => by simp) _).bind fun _ => trivial)

end Contract

/-! ## Transfers of the data threads -/

/-- The data that the host has sent in this iteration of an OUT thread with this buffer. -/
def PacketSent (buf : List UInt8) (es : Trace) (packet : List UInt8) : Prop :=
  ∃ header reply, ⟨.ioctl (.epRead header), reply⟩ ∈ es ∧
    packet = (copyRead buf buf.length buf.length reply).2.take
      (copyRead buf buf.length buf.length reply).1

def dataFraming (buf : List UInt8) : Contract Reply Trace where
  others es fs := fs = es
  replies _ _ := True
  effect es e := es ++ [e]
  permits es o := ∀ request, o = .submit request → request.direction = .out →
    Carries request (PacketSent buf es)
  others_refl _ := rfl
  others_trans h h' := h'.trans h

/-- The buffer for the next iteration is as long as this one. -/
def Keeps (buf : List UInt8) (result : Except IoError (Option (List UInt8))) (_ : Trace) : Prop :=
  ∀ buf', result = .ok (some buf') → buf'.length = buf.length

theorem meets_inIteration (w : Worker) (isIn : w.IsIn) (buf : List UInt8) (es : Trace) :
    Meets (dataFraming buf) (Keeps buf)
      (w.iteration buf) es := by
  have uses : Uses (fun o => ∀ request, o = .submit request → request.direction ≠ .out)
      (w.iteration buf) := by
    unfold Worker.iteration
    rw [if_pos isIn]
    refine (uses_inIteration w ?_ fun _ _ => nofun).bind fun _ => trivial
    rintro _ ⟨⟩
    simp [Worker.request]
  have returns : Returns (fun result => result = none ∨ result = some buf) (w.iteration buf) := by
    unfold Worker.iteration
    rw [if_pos isIn]
    refine Returns.bind fun more => ?_
    cases more with
    | false => exact .inl rfl
    | true => exact .inr rfl
  have meets : Meets (dataFraming buf) (fun _ _ => True) (w.iteration buf) es :=
    Meets.of_uses (I := fun _ => True) uses trivial (fun _ _ _ _ => trivial) fun _ _ _ ho =>
      ⟨fun request hop out => absurd out (ho request hop), fun _ _ => trivial⟩
  refine (meets.returns returns).mono fun result _ h buf' hresult => ?_
  rcases h.2 _ hresult with hnone | hsame
  · cases hnone
  · exact Option.some.inj hsame ▸ rfl

theorem meets_outIteration (w : Worker) {buf : List UInt8} (small : buf.length < 2 ^ 32) :
    Meets (dataFraming buf) (Keeps buf)
      (w.outIteration buf) [] := by
  have ended : ∀ es, Meets (dataFraming buf) (Keeps buf)
      (.done (.ok none)) es := by
    exact fun es _ _ => nofun
  rintro _ rfl
  refine ⟨nofun, fun reply _ => ?_⟩
  have length := length_take_copyRead (Nat.le_refl buf.length) buf reply
  have bound := copyRead_fst_le buf buf.length buf.length reply
  by_cases failed : reply.ret < 0
  · simp only [if_pos failed]
    exact ended _
  · simp only [if_neg failed]
    rintro _ rfl
    refine ⟨?_, fun result _ => ?_⟩
    · rintro _ ⟨⟩ -
      refine ⟨?_, ?_⟩
      · show (UInt32.ofNat _).toNat = _
        rw [UInt32.toNat_ofNat', Nat.mod_eq_of_lt (by omega)]
        exact length.symm
      · rintro packet ⟨header, reply', hmem, rfl⟩
        obtain ⟨rfl, rfl⟩ : header = _ ∧ reply' = reply := by simpa [dataFraming] using hmem
        rfl
    · cases result with
      | error e => exact ended _
      | ok resp =>
        show Meets _ _ (if resp.status ≠ 0 then .done (.ok none) else .done (.ok (some _))) _
        split
        · exact ended _
        · rintro _ _ _ ⟨⟩
          exact length_copyRead (Nat.le_refl _) (Nat.le_refl _) reply

theorem meets_iteration (w : Worker) {buf : List UInt8} (small : buf.length < 2 ^ 32) :
    Meets (dataFraming buf) (Keeps buf)
      (w.iteration buf) [] := by
  by_cases isIn : w.IsIn
  · exact meets_inIteration w isIn buf []
  · unfold Worker.iteration
    rw [if_neg isIn]
    exact meets_outIteration w small

/-! ## What is written to the socket -/

namespace Split

/-- What the writer is busy with and what it has written are commands that were issued. -/
def Recorded (s : Split) : Prop :=
  (∀ k cmd, s.writer.serving = some (k, cmd) → cmd ∈ s.issued) ∧ ∀ p ∈ s.written, p.2 ∈ s.issued

theorem Recorded.step {s t : Split} {a : Action} (h : s.Recorded) (step : s.step a = some t) :
    t.Recorded := by
  obtain ⟨serving, written⟩ := h
  cases step_cases step with
  | overflow | collect => exact ⟨(by rintro _ _ ⟨⟩), written⟩
  | call =>
    refine ⟨?_, fun p hp => List.mem_append_left _ (written p hp)⟩
    rintro _ _ ⟨⟩
    simp
  | writer move =>
    cases move with
    | @written seqnum cmd out pc ok =>
      refine ⟨(by rintro _ _ ⟨⟩), fun p hp => ?_⟩
      rcases List.mem_append.mp hp with hp | hp
      · exact written p hp
      · obtain rfl := List.mem_singleton.mp hp
        exact serving seqnum cmd (by simp [pc, WriterPc.serving])
    | lockInsert pc | insert pc | failed pc | lockRemove pc =>
      exact ⟨fun k cmd hk => serving k cmd (by rw [pc]; exact hk), written⟩
    | remove pc => exact ⟨(by rintro _ _ ⟨⟩), written⟩
  | reader move => cases move <;> exact ⟨serving, written⟩
  | takeResponse | deliver | close => exact ⟨serving, written⟩

/-- The bytes on the wire after `before` are the written commands, one after the other. -/
def Streams (before : List UInt8) (s : Split) : Prop :=
  s.sent = before ++ s.written.flatMap fun (k, cmd) => cmd.encode k s.devid

theorem Streams.step {before : List UInt8} {s t : Split} {a : Action} (h : s.Streams before)
    (succeeds : ∀ fates, a = .writer fates → fates = []) (step : s.step a = some t) :
    t.Streams before := by
  cases step_cases step with
  | @writer fates _ move =>
    obtain rfl := succeeds fates rfl
    cases move with
    | written pc ok =>
      show _ = before ++ List.flatMap _ (s.written ++ [_])
      rw [Command.write_ok ok, show s.sent = _ from h, List.flatMap_append, List.flatMap_singleton,
        List.append_assoc]
    | failed pc error => simp [Command.write_of_no_fates] at error
    | lockInsert | insert | lockRemove | remove => exact h
  | reader move => cases move <;> exact h
  | overflow | call | collect | takeResponse | deliver | close => exact h

end Split

namespace Bridge

/-- Every request, every command and thus everything written is a framed CMD_SUBMIT. -/
structure Framed (b : Bridge) : Prop where
  requests : ∀ c, (b.calls c).request.args.Framed
  issued : ∀ cmd ∈ b.split.issued, ∃ args, cmd = .submit args ∧ args.Framed
  recorded : b.split.Recorded

theorem Framed.step {b b' : Bridge} {a : Action} (h : b.Framed)
    (framed : ∀ c request, a = .start c request → request.args.Framed)
    (step : b.step a = some b') : b'.Framed := by
  refine ⟨fun c => ?_, fun cmd hcmd => ?_, ?_⟩
  · rcases step_request step c with same | ⟨request, ha, hrequest⟩
    · exact same ▸ h.requests c
    · exact hrequest ▸ framed c request ha
  · rcases step_issued step with same | ⟨c, _, hissued⟩
    · exact h.issued cmd (same ▸ hcmd)
    · rcases List.mem_append.mp (hissued ▸ hcmd) with hcmd | hcmd
      · exact h.issued cmd hcmd
      · exact ⟨_, List.mem_singleton.mp hcmd, h.requests c⟩
  · rcases step_split step with same | ⟨a', hstep, _⟩
    · exact same ▸ h.recorded
    · exact h.recorded.step hstep

/-- The server reads back what was written after the first bytes. -/
def InFrame (before : List UInt8) (b : Bridge) : Prop :=
  ∃ (cmds : List (UInt32 × SubmitArgs)) (stream : List UInt8),
    b.split.written = cmds.map (fun (k, args) => (k, .submit args)) ∧
    b.split.sent = before ++ stream ∧
    TakesAll stream (cmds.map fun (k, args) => (args.header k b.split.devid, args.payload))

theorem Framed.inFrame {before : List UInt8} {b : Bridge} (h : b.Framed)
    (streams : b.split.Streams before) : b.InFrame before := by
  have all : ∀ ps : List (UInt32 × Command), (∀ p ∈ ps, p.2 ∈ b.split.issued) →
      ∃ cmds : List (UInt32 × SubmitArgs),
        ps = cmds.map (fun (k, args) => (k, .submit args)) ∧ ∀ cmd ∈ cmds, cmd.2.Framed := by
    intro ps hps
    induction ps with
    | nil => exact ⟨[], rfl, nofun⟩
    | cons p ps ih =>
      obtain ⟨first, rest⟩ := List.forall_mem_cons.mp hps
      obtain ⟨args, hargs, framed⟩ := h.issued p.2 first
      obtain ⟨cmds, rfl, hall⟩ := ih rest
      exact ⟨(p.1, args) :: cmds, by simp [← hargs], List.forall_mem_cons.mpr ⟨framed, hall⟩⟩
  obtain ⟨cmds, written, framed⟩ := all b.split.written h.recorded.2
  refine ⟨cmds, _, written, streams, ?_⟩
  rw [written, List.flatMap_map]
  exact (takesAll_iff b.split.devid cmds).mpr framed

end Bridge

namespace System

open Transition

/-- `ep0_read` returns the whole data stage of each OUT request with data. -/
def WholeStages (s : System) (a : Action) : Prop :=
  ∀ reply ctrl, a = .main (.ioctl reply) → reply.Succeeds →
    eventOf s.main.trace = some (.control ctrl) → dispatch ctrl = .controlOutWithData →
    (stageRead ctrl reply).1 = ctrl.wLength.toNat

/-- The socket takes all that is written to it. -/
def WritesSucceed (_ : System) (a : Action) : Prop :=
  ∀ c fates, a = .bridge (.call c fates) → fates = []

/-- Each OUT transfer is carried as the host has sent it, and announced as it is carried. -/
structure InFrame (s : System) : Prop where
  control : ∀ request k, s.main.rest = .op (.submit request) k → request.direction = .out →
    Carries request (StageSent s.main.trace)
  data : ∀ t thread request k, s.threads t = some thread →
    thread.activity.rest = .op (.submit request) k → request.direction = .out →
    Carries request (PacketSent thread.activity.vars thread.activity.trace)
  issued : ∀ cmd ∈ s.bridge.split.issued, ∃ args, cmd = .submit args ∧ args.Framed

/-- A data thread in its iteration. -/
def DataInFrame (thread : DataThread) : Prop :=
  thread.activity.vars.length < 2 ^ 32 ∧
    Meets (dataFraming thread.activity.vars) (Keeps thread.activity.vars) thread.activity.rest
      thread.activity.trace

structure FramingInv (s : System) : Prop where
  main : Meets controlFraming (fun _ _ => True) s.main.rest s.main.trace
  threads : ∀ t thread, s.threads t = some thread → DataInFrame thread
  bridge : s.bridge.Framed

theorem DataInFrame.enter (worker : Worker) {buf : List UInt8} (small : buf.length < 2 ^ 32) :
    DataInFrame (.enter worker buf) := ⟨small, meets_iteration worker small⟩

theorem DataInFrame.initial (worker : Worker) : DataInFrame (.enter worker worker.initial) := by
  refine .enter worker ?_
  unfold Worker.initial
  split
  · exact Nat.two_pow_pos 32
  · rw [List.length_replicate]
    exact worker.maxPacketSize.toNat_lt

/-- Replacing or removing one thread. -/
theorem forall_update {threads : ThreadId → Option DataThread}
    (h : ∀ t thread, threads t = some thread → DataInFrame thread) {x : Option DataThread}
    (hx : ∀ thread, x = some thread → DataInFrame thread) (t : ThreadId) :
    ∀ u thread, Function.update threads t x u = some thread → DataInFrame thread := by
  intro u thread hu
  by_cases hut : u = t
  · subst hut
    rw [Function.update_self] at hu
    exact hx thread hu
  · rw [Function.update_of_ne hut] at hu
    exact h u thread hu

theorem Carries.framed {request : UrbRequest} {sent : List UInt8 → Prop}
    (h : request.direction = .out → Carries request sent) : request.args.Framed :=
  fun out => (h out).length

theorem FramingInv.inFrame {s : System} (h : s.FramingInv) : s.InFrame := by
  refine ⟨fun request k rest out => ?_, fun t thread request k live rest out => ?_, h.bridge.issued⟩
  · have now := h.main
    rw [rest] at now
    exact (now _ rfl).1 request rfl out
  · have now := (h.threads t thread live).2
    rw [rest] at now
    exact (now _ rfl).1 request rfl out

theorem FramingInv.step {s s' : System} {a : Action} (h : s.FramingInv) (whole : s.WholeStages a)
    (step : s.step a = some s') : s'.FramingInv := by
  cases step_cases step with
  | bridge move inside =>
    exact ⟨h.main, h.threads, h.bridge.step (fun c request ha => absurd ha (inside c request)) move⟩
  | main step =>
    have now := h.main
    cases step with
    | @ioctl call k reply rest =>
      rw [rest] at now
      refine ⟨(now _ rfl).2 reply ?_, h.threads, h.bridge⟩
      exact fun succeeds ctrl event => whole reply ctrl rfl succeeds event
    | @submit request k bridge rest call start =>
      refine ⟨h.main, h.threads, h.bridge.step (a := .start _ request) ?_ start⟩
      rintro _ _ ⟨⟩
      exact Carries.framed (h.inFrame.control request k rest)
    | @resume request k c result rest =>
      rw [rest] at now
      exact ⟨(now _ rfl).2 result trivial, h.threads, h.bridge⟩
    | @spawn worker k rest =>
      rw [rest] at now
      refine ⟨(now _ rfl).2 s.spawned trivial, forall_update h.threads ?_ s.spawned, h.bridge⟩
      rintro _ ⟨⟩
      exact .initial worker
    | @join t k rest =>
      rw [rest] at now
      exact ⟨(now _ rfl).2 () trivial, h.threads, h.bridge⟩
    | @next vars rest => exact ⟨meets_mainLoop_framing vars, h.threads, h.bridge⟩
  | @thread _ t thread _ live step =>
    obtain ⟨small, now⟩ := h.threads t thread live
    have keep : ∀ activity, DataInFrame { thread with activity } →
        ∀ u x, Function.update s.threads t (some { thread with activity }) u = some x →
          DataInFrame x := by
      refine fun activity inFrame => forall_update h.threads ?_ t
      rintro _ ⟨⟩
      exact inFrame
    cases step with
    | @ioctl call k reply rest =>
      rw [rest] at now
      exact ⟨h.main, keep _ ⟨small, (now _ rfl).2 reply trivial⟩, h.bridge⟩
    | @submit request k bridge rest call start =>
      refine ⟨h.main, keep { thread.activity with call := some s.called } ⟨small, now⟩,
        h.bridge.step (a := .start _ request) ?_ start⟩
      rintro _ _ ⟨⟩
      exact Carries.framed (h.inFrame.data t thread request k live rest)
    | @resume request k c result rest =>
      rw [rest] at now
      exact ⟨h.main, keep _ ⟨small, (now _ rfl).2 result trivial⟩, h.bridge⟩
    | @next buf rest =>
      rw [rest] at now
      refine ⟨h.main, keep _ (.enter thread.worker ?_), h.bridge⟩
      exact (now _ rfl buf rfl) ▸ small
    | exit | unwind => exact ⟨h.main, forall_update h.threads (x := none) nofun t, h.bridge⟩

theorem streams_step {before : List UInt8} {s s' : System} {a : Action}
    (h : s.bridge.split.Streams before) (succeeds : s.WritesSucceed a)
    (step : s.step a = some s') : s'.bridge.split.Streams before := by
  have started : ∀ {c request bridge}, s.bridge.start c request = some bridge →
      bridge.split.Streams before := by
    intro c request bridge start
    obtain ⟨_, rfl⟩ := Bridge.start_cases start
    exact h
  cases step_cases step with
  | main step =>
    cases step with
    | submit rest call start => exact started start
    | _ => exact h
  | thread live step =>
    cases step with
    | submit rest call start => exact started start
    | _ => exact h
  | bridge move inside =>
    rcases Bridge.step_split move with same | ⟨a', hstep, on⟩
    · exact same ▸ h
    · refine h.step (fun fates ha => ?_) hstep
      obtain ⟨c, rfl⟩ := on.writes fates ha
      exact succeeds c fates rfl

/-- With whole data stages every OUT transfer is carried as it was sent, and on
a working socket the server finds every command. -/
theorem stream_in_frame {build : Build} {input : Input} {output : Output}
    {busnum devnum : UInt32} {s : System}
    (run : Reaches System.step WholeStages (imported build input output busnum devnum) s) :
    s.InFrame ∧
      (Reaches System.step (fun s a => s.WholeStages a ∧ s.WritesSucceed a)
        (imported build input output busnum devnum) s → s.bridge.InFrame output.sent) := by
  have start : (imported build input output busnum devnum).FramingInv := by
    refine ⟨meets_mainLoop_framing _, nofun, fun c => nofun, nofun, nofun, nofun⟩
  have inv : s.FramingInv :=
    run.invariant FramingInv start fun _ _ _ h whole step => h.step whole step
  refine ⟨inv.inFrame, fun written => inv.bridge.inFrame ?_⟩
  exact written.invariant (fun s => s.bridge.split.Streams output.sent) (List.append_nil _).symm
    fun _ _ _ h guard step => streams_step h guard.2 step

/-- A class request with a data stage. -/
def setReport (wLength : UInt16) : UsbCtrlRequest := ⟨0x21, 0x09, 0x0200, 0, wLength⟩

/-- The host sends `wLength` bytes, of which `ep0_read` returns the first `n`. -/
def sendReport (wLength : UInt16) (n : Int32) : List Action :=
  [.main (.ioctl (fetchedControl (setReport wLength))),
    .main (.ioctl ⟨n, 0, List.replicate wLength.toNat 0xaa⟩)]

def isWhole (s : System) (a : Action) : Bool :=
  match a, eventOf s.main.trace with
  | .main (.ioctl reply), some (.control ctrl) =>
    decide (reply.Succeeds → dispatch ctrl = .controlOutWithData →
      (stageRead ctrl reply).1 = ctrl.wLength.toNat)
  | _, _ => true

theorem whole_of (s : System) (a : Action) (h : isWhole s a = true) : s.WholeStages a := by
  rintro reply ctrl rfl succeeds event
  simp only [isWhole, event] at h
  exact of_decide_eq_true h succeeds

def isWritten (_ : System) (a : Action) : Bool :=
  match a with
  | .bridge (.call _ fates) => fates.isEmpty
  | _ => true

theorem written_of (s : System) (a : Action) (h : isWritten s a = true) : s.WritesSucceed a := by
  rintro c fates rfl
  exact List.isEmpty_iff.mp h

/-- A report of eight bytes that is read as a whole. -/
theorem stream_in_frame_report : ∃ s : System, s.bridge.split.written.length = 1 ∧ s.InFrame ∧
    s.bridge.InFrame [] := by
  have allowed : ∀ s a, (isWhole s a && isWritten s a) = true →
      s.WholeStages a ∧ s.WritesSucceed a :=
    fun s a h => ((Bool.and_eq_true _ _).mp h).imp (whole_of s a) (written_of s a)
  obtain ⟨s, run, found⟩ := Reaches.of_exec_any System.step allowed device
    (sendReport 8 8 ++ exchange 0 1 [])
    (fun s => decide (s.bridge.split.written.length = 1)) (by decide +kernel)
  obtain ⟨inFrame, stream⟩ := stream_in_frame (run.mono fun _ _ => And.left)
  exact ⟨s, of_decide_eq_true found, inFrame, stream run⟩

/-- The main thread submits fewer bytes than it announces. -/
def announcesMore (s : System) : Bool :=
  match s.main.rest with
  | .op (.submit request) _ =>
    decide (request.direction = .out ∧ request.data.length < request.transferBufferLength.toNat)
  | _ => false

theorem not_inFrame_of {s : System} (h : announcesMore s = true) : ¬ s.InFrame := by
  unfold announcesMore at h
  split at h
  · next request k rest =>
    obtain ⟨out, fewer⟩ := of_decide_eq_true h
    intro inFrame
    have := (inFrame.control request k rest out).length
    omega
  · cases h

/-- The server waits for a payload that the rest of the stream does not fill. -/
def waitsForPayload (s : System) : Bool :=
  decide (s.bridge.split.written.length = 2) && (takeCommand s.bridge.split.sent).isNone

theorem not_bridge_inFrame_of {s : System} (h : waitsForPayload s = true) :
    ¬ s.bridge.InFrame [] := by
  simp only [waitsForPayload, Bool.and_eq_true, decide_eq_true_iff,
    Option.isNone_iff_eq_none] at h
  obtain ⟨two, stuck⟩ := h
  rintro ⟨cmds, stream, written, sent, takes⟩
  rw [List.nil_append] at sent
  cases cmds with
  | nil => simp [written] at two
  | cons cmd cmds =>
    cases takes with
    | cons head => simp [sent, head] at stuck

/-- A report of 1024 bytes, of which `ep0_read` can return only 512, and one of
eight bytes of which it returns four. After the first of these the server takes
the next command for payload. -/
theorem stream_out_of_frame :
    (∃ s, Reaches System.step WritesSucceed device s ∧ ¬ s.InFrame) ∧
    (∃ s, Reaches System.step WritesSucceed device s ∧ ¬ s.InFrame) ∧
    ∃ s, Reaches System.step WritesSucceed device s ∧ ¬ s.bridge.InFrame [] := by
  refine ⟨?_, ?_, ?_⟩
  · obtain ⟨s, run, found⟩ := Reaches.of_exec_any System.step written_of device
      (sendReport 1024 512) announcesMore (by decide +kernel)
    exact ⟨s, run, not_inFrame_of found⟩
  · obtain ⟨s, run, found⟩ := Reaches.of_exec_any System.step written_of device
      (sendReport 8 4) announcesMore (by decide +kernel)
    exact ⟨s, run, not_inFrame_of found⟩
  · obtain ⟨s, run, found⟩ := Reaches.of_exec_any System.step written_of device
      (sendReport 1024 512 ++ exchange 0 1 [] ++
        [.main .next, .main (.ioctl (fetchedControl (getConfigDescriptor 9))), .main .submit] ++
        runCall 1)
      waitsForPayload (by decide +kernel)
    exact ⟨s, run, not_bridge_inFrame_of found⟩

end System

end UsbipDevirt
