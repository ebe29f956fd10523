import UsbipDevirt.ResponseStream
import UsbipDevirt.Operations
import UsbipDevirt.EndpointData

/-!
# How long a reply can be

Nothing compares the length of a reply with the length that was asked for. A
payload is as long as its own header announces, and in this length it is passed
on to endpoint zero and to the endpoints of the device. So it is within what
was asked for exactly as far as the server announces no more.
-/

namespace UsbipDevirt

open Transition Program Program.Prog

/-- A reply to `args` whose header announces its length. -/
structure AsAnnounced (args : SubmitArgs) (header : RetSubmitHeader) (ret : RetSubmit) : Prop where
  direction : ret.direction = args.direction
  actualLength : ret.actualLength = header.actualLength
  length : args.direction = .in → ret.data.length = ret.actualLength.toNat
  empty : args.direction = .out → ret.data = []
  within : args.direction = .in → (ret.data.length ≤ args.transferBufferLength.toNat ↔
    header.actualLength ≤ args.transferBufferLength)

theorem asAnnounced_toRet {args : SubmitArgs} {header : RetSubmitHeader} {direction : Direction}
    {data : List UInt8} (asked : args.direction = direction)
    (length : data.length = if direction = .in then header.actualLength.toNat else 0) :
    AsAnnounced args header (header.toRet data direction) where
  direction := asked.symm
  actualLength := rfl
  length isIn := by
    rw [if_pos (asked ▸ isIn)] at length
    exact length
  empty isOut := by
    rw [if_neg (by simp [← asked, isOut])] at length
    exact List.length_eq_zero_iff.mp length
  within isIn := by
    rw [if_pos (asked ▸ isIn)] at length
    simp only [RetSubmitHeader.toRet, length, UInt32.le_iff_toNat_le]

theorem AsAnnounced.length_le {args : SubmitArgs} {header : RetSubmitHeader} {ret : RetSubmit}
    (h : AsAnnounced args header ret) : ret.data.length ≤ header.actualLength.toNat := by
  cases direction : args.direction with
  | «in» => rw [h.length direction, h.actualLength]
  | out => simp [h.empty direction]

/-! ## An unsplit connection -/

/-- The RET_SUBMIT header that comes next. -/
def Input.announces (r : Input) : Option RetSubmitHeader :=
  match r.readExact 48 with
  | (.ok buf, _) =>
    match parseHeader buf with
    | .retSubmit header => some header
    | _ => none
  | _ => none

/-- The arguments of a `send_submit` that has returned `Ok(k)`. -/
def submitAt (k : UInt32) (e : Performed) : Option SubmitArgs :=
  match e.action, e.output with
  | .send (.submit args), .sent (.ok seqnum) => if seqnum = k then some args else none
  | _, _ => none

/-- The arguments of the latest `send_submit` that has returned `Ok(k)`. -/
def lastSubmit (k : UInt32) (log : OperationLog) : Option SubmitArgs :=
  (log.filterMap (submitAt k)).getLast?

/-- What is pending was asked for. -/
def Asked (log : OperationLog) (maps : SharedState) : Prop :=
  ∀ k d, maps.pending.lookup k = some d → ∃ args, lastSubmit k log = some args ∧ args.direction = d

theorem lastSubmit_snoc (k : UInt32) (log : OperationLog) (e : Performed) :
    lastSubmit k (log ++ [e]) = (submitAt k e).or (lastSubmit k log) := by
  rw [lastSubmit, filterMap_snoc, List.getLast?_append]
  cases submitAt k e <;> rfl

/-- Receiving only removes what is pending. -/
theorem RecvMove.pending {r : ReadSide} {out : Except IoError UrbResponse × ReadSide}
    (move : RecvMove r out) {k : UInt32} {d : Direction}
    (h : out.2.maps.pending.lookup k = some d) : r.maps.pending.lookup k = some d := by
  cases move with
  | headerFailed | unknownSeqnum | unknownCommand => exact h
  | payloadFailed | submit => exact Table.lookup_of_erase h
  | unlink => exact SharedState.lookup_of_applyUnlink h

theorem RecvMove.reply {r : ReadSide} {out : Except IoError UrbResponse × ReadSide}
    (move : RecvMove r out) {ret : RetSubmit} (ok : out.1 = .ok (.submit ret)) :
    ∃ header direction data, r.input.announces = some header ∧
      r.maps.pending.lookup header.seqnum = some direction ∧ ret = header.toRet data direction ∧
      data.length = if direction = .in then header.actualLength.toNat else 0 := by
  cases move with
  | @submit buf input header direction data input' read parsed present payload =>
    obtain rfl := UrbResponse.submit.inj (Except.ok.inj ok)
    refine ⟨header, direction, data, ?_, present, rfl, ((Input.readExact_ok_iff ..).mp payload).1⟩
    simp only [Input.announces, read, parsed]
  | headerFailed | unknownSeqnum | payloadFailed | unlink | unknownCommand => cases ok

theorem Asked.perform {build : Build} {log : OperationLog} {c c' : UsbipConnection}
    {op : Operation} {o : Outcome} (h : Asked log c.maps)
    (step : c.perform build op = some (o, c')) :
    Asked (log ++ [⟨c, op, o, c'⟩]) c'.maps := by
  have quiet (kept : ∀ k d, c'.maps.pending.lookup k = some d → c.maps.pending.lookup k = some d)
      (none : ∀ k, submitAt k ⟨c, op, o, c'⟩ = none) : Asked (log ++ [⟨c, op, o, c'⟩]) c'.maps := by
    intro k d present
    rw [lastSubmit_snoc, none, Option.none_or]
    exact h k d (kept k d present)
  cases UsbipConnection.perform_cases step with
  | @failed cmd => exact quiet (fun _ _ => id) fun _ => by cases cmd <;> rfl
  | received decodes move => exact quiet (fun _ _ => move.pending) fun _ => rfl
  | @sent cmd =>
    cases cmd with
    | unlink target => exact quiet (fun _ _ => id) fun _ => rfl
    | submit args =>
      intro k d present
      simp only [SharedState.register, Table.lookup_insert] at present
      rw [lastSubmit_snoc]
      split at present
      · next same =>
        exact ⟨args, by simp [submitAt, same], Option.some.inj present⟩
      · next other =>
        simpa [submitAt, Ne.symm other] using h k d present

/-- Every `Ok(Submit)` of a log is as long as its header announces. -/
def RepliesAsAnnounced (log : OperationLog) : Prop := ∀ earlier e later ret,
  log = earlier ++ e :: later → e.output = .received (.ok (.submit ret)) →
    ∃ header args, e.before.input.announces = some header ∧
      lastSubmit ret.seqnum earlier = some args ∧ AsAnnounced args header ret

theorem asked_of_operates {build : Build} {input : Input} {output : Output} {busnum devnum : UInt32}
    {log : OperationLog} {c : UsbipConnection}
    (run : Operates build (.imported input output busnum devnum) log c) : Asked log c.maps := by
  refine run.invariant (fun log c => Asked log c.maps) ?_ fun _ _ _ _ _ h step => h.perform step
  simp [Asked, UsbipConnection.imported]

theorem repliesAsAnnounced_of_operates {build : Build} {input : Input} {output : Output}
    {busnum devnum : UInt32} {log : OperationLog} {c : UsbipConnection}
    (run : Operates build (.imported input output busnum devnum) log c) :
    RepliesAsAnnounced log := by
  induction run with
  | start => simp [RepliesAsAnnounced]
  | @next log c c' op o run step ih =>
    intro earlier e later ret split received
    rcases List.eq_nil_or_concat later with rfl | ⟨later, last, rfl⟩
    · obtain ⟨rfl, here⟩ := List.append_inj' split rfl
      obtain rfl := List.singleton_inj.mp here
      cases UsbipConnection.perform_cases step with
      | sent | failed => cases received
      | received decodes move =>
        obtain ⟨header, direction, data, announced, present, rfl, length⟩ :=
          move.reply (Outcome.received.inj received)
        obtain ⟨args, asked, same⟩ := asked_of_operates run _ _ present
        exact ⟨header, args, announced, asked, asAnnounced_toRet same length⟩
    · rw [List.concat_eq_append, ← List.cons_append, ← List.append_assoc] at split
      exact ih earlier e later ret (List.append_inj_left' split rfl) received

/-! ## Its halves -/

namespace Split

/-- `args` were passed to a `send_submit` that was given number `k`, either
before the connection was split or since then. -/
def AskedAs (log : OperationLog) (first : UInt32) (s : Split) (k : UInt32) (args : SubmitArgs) :
    Prop :=
  lastSubmit k log = some args ∨
    ∃ i, s.issued[i]? = some (.submit args) ∧ k = first + UInt32.ofNat i

/-- What the halves hold was asked for, and what they have decoded is as announced. -/
structure Faithful (log : OperationLog) (first : UInt32) (s : Split) : Prop where
  counter : s.nextSeqnum = first + UInt32.ofNat s.issued.length
  serving : ∀ k cmd, s.writer.serving = some (k, cmd) →
    ∃ i, s.issued[i]? = some cmd ∧ k = first + UInt32.ofNat i
  recorded : ∀ k d, s.shared.pending.lookup k = some d →
    ∃ args, s.AskedAs log first k args ∧ args.direction = d
  taken : ∀ header d, s.reader = .payload header d →
    ∃ args, s.AskedAs log first header.seqnum args ∧ args.direction = d
  decoded : ∀ header ret, (header, ret) ∈ s.decoded → ret.seqnum = header.seqnum ∧
    ∃ args, s.AskedAs log first ret.seqnum args ∧ AsAnnounced args header ret

section Faithful

variable {log : OperationLog} {first : UInt32} {s t : Split}

theorem AskedAs.mono {k : UInt32} {args : SubmitArgs} (h : s.AskedAs log first k args)
    {more : List Command} (grown : t.issued = s.issued ++ more) : t.AskedAs log first k args := by
  rcases h with before | ⟨i, here, key⟩
  · exact .inl before
  · have inside := (List.getElem?_eq_some_iff.mp here).1
    exact .inr ⟨i, by rwa [grown, List.getElem?_append_left inside], key⟩

/-- Steps that register nothing and read nothing of the server. -/
theorem Faithful.quiet (h : Faithful log first s) {more : List Command}
    (grown : t.issued = s.issued ++ more)
    (counter : t.nextSeqnum = first + UInt32.ofNat t.issued.length)
    (serving : ∀ k cmd, t.writer.serving = some (k, cmd) →
      ∃ i, t.issued[i]? = some cmd ∧ k = first + UInt32.ofNat i)
    (pending : ∀ k d, t.shared.pending.lookup k = some d → s.shared.pending.lookup k = some d)
    (reader : ∀ header d, t.reader = .payload header d → s.reader = .payload header d)
    (decoded : t.decoded = s.decoded) : Faithful log first t := by
  refine ⟨counter, serving, fun k d present => ?_, fun header d pc => ?_, fun header ret mem => ?_⟩
  · obtain ⟨args, asked, same⟩ := h.recorded k d (pending k d present)
    exact ⟨args, asked.mono grown, same⟩
  · obtain ⟨args, asked, same⟩ := h.taken header d (reader header d pc)
    exact ⟨args, asked.mono grown, same⟩
  · obtain ⟨seqnum, args, asked, announced⟩ := h.decoded header ret (decoded ▸ mem)
    exact ⟨seqnum, args, asked.mono grown, announced⟩

theorem Faithful.writerStep (h : Faithful log first s) {fates : List Fate}
    (step : s.writerStep fates = some t) : Faithful log first t := by
  cases writerStep_cases step with
  | lockInsert pc | failed pc | lockRemove pc =>
    exact h.quiet (List.append_nil _).symm h.counter
      (fun k cmd here => h.serving k cmd (by rw [pc]; exact here))
      (fun _ _ => id) (fun _ _ => id) rfl
  | written pc =>
    exact h.quiet (List.append_nil _).symm h.counter (by rintro _ _ ⟨⟩) (fun _ _ => id)
      (fun _ _ => id) rfl
  | remove pc =>
    exact h.quiet (List.append_nil _).symm h.counter (by rintro _ _ ⟨⟩)
      (fun _ _ => SharedState.lookup_of_unregister) (fun _ _ => id) rfl
  | @insert seqnum cmd pc =>
    have here : s.writer.serving = some (seqnum, cmd) := by rw [pc]; rfl
    refine { h with
      serving := fun k cmd' same => h.serving k cmd' (here.trans same), recorded := ?_ }
    intro k d present
    cases cmd with
    | unlink target => exact h.recorded k d present
    | submit args =>
      simp only [SharedState.register, Table.lookup_insert] at present
      split at present
      · next same =>
        subst same
        exact ⟨args, .inr (h.serving k _ here), Option.some.inj present⟩
      · exact h.recorded k d present

theorem Faithful.readerStep (h : Faithful log first s) (step : s.readerStep = some t) :
    Faithful log first t := by
  have kept (u : Split) (issued : u.issued = s.issued) (next : u.nextSeqnum = s.nextSeqnum)
      (writer : u.writer = s.writer) (decoded : u.decoded = s.decoded)
      (pending : ∀ k d, u.shared.pending.lookup k = some d → s.shared.pending.lookup k = some d)
      (elsewhere : ∀ header d, u.reader ≠ .payload header d) : Faithful log first u := by
    refine h.quiet (by rw [issued, List.append_nil]) ?_ ?_ pending
      (fun header d pc => absurd pc (elsewhere header d)) decoded
    · rw [next, issued]
      exact h.counter
    · rw [writer, issued]
      exact h.serving
  cases readerStep_cases step with
  | submitHeader | unlinkHeader | unknownCommand | ended | lockSubmit | lockUnlink =>
    exact kept _ rfl rfl rfl rfl (fun _ _ => id) (by rintro _ _ ⟨⟩)
  | unknownSeqnum =>
    exact kept _ rfl rfl rfl rfl (fun _ _ => Table.lookup_of_erase) (by rintro _ _ ⟨⟩)
  | removeUnlink =>
    exact kept _ rfl rfl rfl rfl (fun _ _ => SharedState.lookup_of_applyUnlink) (by rintro _ _ ⟨⟩)
  | @removeSubmit header direction pc present =>
    refine { h with
      recorded := fun k d here => h.recorded k d (Table.lookup_of_erase here)
      taken := ?_ }
    rintro _ _ ⟨⟩
    exact h.recorded _ _ present
  | @payload header direction n pc amount enough =>
    refine { h with taken := by rintro _ _ ⟨⟩, decoded := fun header' ret mem => ?_ }
    rcases List.mem_append.mp mem with old | new
    · exact h.decoded header' ret old
    · obtain ⟨rfl, rfl⟩ := Prod.mk.inj (List.mem_singleton.mp new)
      obtain ⟨args, asked, same⟩ := h.taken header' direction pc
      exact ⟨rfl, args, asked, asAnnounced_toRet same
        ((List.length_take_of_le enough).trans amount)⟩

theorem Faithful.step (h : Faithful log first s) {a : Action} (step : s.step a = some t) :
    Faithful log first t := by
  cases step_cases step with
  | overflow | collect =>
    exact h.quiet (List.append_nil _).symm h.counter (by rintro _ _ ⟨⟩) (fun _ _ => id)
      (fun _ _ => id) rfl
  | call pc alloc =>
    obtain ⟨rfl, rfl, _⟩ := allocSeqnum_cases alloc
    refine h.quiet rfl ?_ ?_ (fun _ _ => id) (fun _ _ => id) rfl
    · simp only [List.length_append, List.length_singleton, h.counter]
      rw [UInt32.ofNat_add, UInt32.add_assoc]
      rfl
    · rintro k cmd' ⟨⟩
      exact ⟨s.issued.length, by simp, h.counter⟩
  | writer => exact h.writerStep step
  | reader => exact h.readerStep step
  | takeResponse => exact { h with taken := by rintro _ _ ⟨⟩ }
  | deliver | close => exact { h with }

/-- Whatever the halves do, at any pace and against any server. -/
theorem faithful_of_run {build : Build} {c : UsbipConnection} (asked : Asked log c.maps)
    (run : Reaches Split.step always (ofConnection build c) s) :
    Faithful log c.nextSeqnum s := by
  refine run.invariant (Faithful log c.nextSeqnum) ?_ fun _ _ _ h _ step => h.step step
  refine ⟨?_, by rintro _ _ ⟨⟩, fun k d present => ?_, by rintro _ _ ⟨⟩, by simp [ofConnection]⟩
  · simp [ofConnection]
  · obtain ⟨args, before, same⟩ := asked k d present
    exact ⟨args, .inl before, same⟩

end Faithful

end Split

/-! ## The bridge -/

/-- The RET_SUBMITs that the reader half has decoded. -/
def Split.replies (s : Split) : List RetSubmit := s.decoded.map Prod.snd

theorem Split.step_replies {s t : Split} {a : Action} (h : ∀ ret ∈ s.reader.result, ret ∈ s.replies)
    (step : s.step a = some t) :
    (∀ ret ∈ t.reader.result, ret ∈ t.replies) ∧ ∀ ret ∈ s.replies, ret ∈ t.replies := by
  have kept (reader : t.reader = s.reader) (decoded : t.decoded = s.decoded) :
      (∀ ret ∈ t.reader.result, ret ∈ t.replies) ∧ ∀ ret ∈ s.replies, ret ∈ t.replies := by
    rw [replies, replies, reader, decoded]
    exact ⟨h, fun _ => id⟩
  cases step_cases step with
  | writer move => cases move <;> exact kept rfl rfl
  | reader =>
    obtain ⟨_, _, decoded⟩ := readerStep_replies step
    rw [replies, replies, decoded]
    exact ⟨fun _ => List.mem_append_right _, fun _ => List.mem_append_left _⟩
  | takeResponse => exact ⟨by rintro _ ⟨⟩, fun _ => id⟩
  | overflow | call | collect | deliver | close => exact kept rfl rfl

/-- What a call has received or returned is among these replies. -/
def Call.Genuine (call : Call) (replies : List RetSubmit) : Prop :=
  ∀ ret, .ok ret ∈ call.channel ∨ call.pc = .returned (.ok ret) → ret ∈ replies

namespace Bridge

theorem reaches_split {build : Build} {input : Input} {output : Output} {busnum devnum : UInt32}
    {b : Bridge} (run : Reaches Bridge.step always (imported build input output busnum devnum) b) :
    Reaches Split.step always
      (.ofConnection build (.imported input output busnum devnum)) b.split := by
  refine run.simulate Bridge.split fun b a b' _ step => ?_
  rcases step_split step with same | ⟨a', move, _⟩
  · exact .inl same
  · exact .inr ⟨a', trivial, move⟩

/-- Nothing is handed on that was not decoded. -/
structure Genuine (b : Bridge) : Prop where
  result : ∀ ret ∈ b.split.reader.result, ret ∈ b.split.replies
  carried : ∀ ret ∈ b.reader.carried, ret ∈ b.split.replies
  calls : ∀ c, (b.calls c).Genuine b.split.replies

theorem Genuine.carried_step {b b' : Bridge} {a : Action} (h : b.Genuine)
    (grown : ∀ ret ∈ b.split.replies, ret ∈ b'.split.replies) (step : b.step a = some b') :
    ∀ ret ∈ b'.reader.carried, ret ∈ b'.split.replies := by
  have kept (same : ∀ ret ∈ b'.reader.carried, ret ∈ b.reader.carried) :
      ∀ ret ∈ b'.reader.carried, ret ∈ b'.split.replies :=
    fun ret mem => grown ret (h.carried ret (same ret mem))
  cases step_cases step with
  | start | drain | deliver | close => exact kept fun _ => id
  | call move => cases move <;> exact kept fun _ => id
  | reader move =>
    cases move with
    | @submit split ret pc take =>
      obtain ⟨returned, _⟩ := Split.takeResponse_cases take
      intro ret' mem
      exact grown ret' (h.result ret'
        (by simpa [returned, ReaderPc.result, ReaderThread.carried] using mem))
    | reading | unlink => exact kept fun _ => id
    | lockPending pc | found pc => exact kept fun ret mem => by rw [pc]; exact mem
    | error | unknown | deliver | lockDrain | drained => exact kept (by rintro _ ⟨⟩)

theorem Genuine.calls_step {b b' : Bridge} {a : Action} (h : b.Genuine)
    (grown : ∀ ret ∈ b.split.replies, ret ∈ b'.split.replies) (step : b.step a = some b') :
    ∀ c, (b'.calls c).Genuine b'.split.replies := by
  intro c
  have frame {call : Call} (calls : b'.calls c = call)
      (genuine : call.Genuine b.split.replies) : (b'.calls c).Genuine b'.split.replies := by
    rw [calls]
    exact fun ret here => grown ret (genuine ret here)
  cases step_callChange step c with
  | same calls => exact frame calls (h.calls c)
  | started _ calls => exact frame calls (by simp [Call.Genuine, Call.idle])
  | sent _ _ source calls =>
    refine frame calls ?_
    rintro ret (channel | pc)
    · have carried := source ret (List.mem_singleton.mp channel).symm
      exact h.carried ret (by simp [carried, ReaderThread.carried])
    · exact h.calls c ret (.inr pc)
  | moved move =>
    have running {pc : CallPc} (seqnum : Option UInt32) (wrote : Bool)
        (open' : ∀ ret, pc ≠ .returned (.ok ret)) :
        Call.Genuine { b.calls c with pc, seqnum, wrote } b.split.replies := by
      rintro ret (channel | returned)
      · exact h.calls c ret (.inl channel)
      · exact absurd returned (open' ret)
    cases move with
    | writing => exact frame rfl (h.calls c)
    | received pc channel =>
      refine frame (setCall_calls_self ..) ?_
      rintro ret (later | returned)
      · exact h.calls c ret (.inl (channel ▸ List.mem_cons_of_mem _ later))
      · obtain rfl := CallPc.returned.inj returned
        exact h.calls c ret (.inl (channel ▸ List.mem_cons_self))
    | _ => exact frame (setCall_calls_self ..) (running _ _ (by simp))

/-- The replies are only ever added to. -/
theorem Genuine.grown {b b' : Bridge} {a : Action} (h : b.Genuine) (step : b.step a = some b') :
    (∀ ret ∈ b'.split.reader.result, ret ∈ b'.split.replies) ∧
      ∀ ret ∈ b.split.replies, ret ∈ b'.split.replies := by
  rcases step_split step with same | ⟨a', move, _⟩
  · rw [same]
    exact ⟨h.result, fun _ => id⟩
  · exact Split.step_replies h.result move

theorem Genuine.step {b b' : Bridge} {a : Action} (h : b.Genuine) (step : b.step a = some b') :
    b'.Genuine :=
  have ⟨result, grown⟩ := h.grown step
  ⟨result, h.carried_step grown step, h.calls_step grown step⟩

theorem Genuine.initial (split : Split) (fresh : split.reader = .header) : (new split).Genuine where
  result := by simp [new, fresh, ReaderPc.result]
  carried := by simp [new, ReaderThread.carried]
  calls := by simp [new, Call.Genuine, Call.idle]

end Bridge

/-! ## Endpoint zero -/

/-- What an iteration of the event loop passes to `ep0_write` in
`handle_control_in`, and for which request. -/
def ep0Data : Trace → Option (UsbCtrlRequest × List UInt8)
  | first :: ⟨.submit _, .ok resp⟩ :: _ =>
    match eventOf [first] with
    | some (.control ctrl) =>
      if dispatch ctrl = .controlIn ∧ resp.status = 0 then some (ctrl, resp.data) else none
    | _ => none
  | _ => none

theorem after_mainLoop {vars : LoopState} {es : Trace} {rest : Routine LoopState}
    (run : After (mainLoop vars) es rest) {event : Event} (fetched : eventOf es = some event) :
    ∃ first fs, es = first :: fs ∧ After (handleEvent event vars) fs rest := by
  unfold mainLoop RawGadgetDevice.eventFetch at run
  simp only [rawIoctl_bind, op_bind] at run
  rcases after_op_iff.mp run with ⟨rfl, _⟩ | ⟨reply, fs, rfl, later⟩
  · cases fetched
  · rw [eventOf_cons] at fetched
    by_cases failed : reply.ret < 0
    · simp [eventOf, IoctlReply.Succeeds, failed] at fetched
    · rw [if_neg failed] at later
      obtain rfl := Option.some.inj ((if_pos failed).symm.trans fetched)
      exact ⟨_, fs, rfl, later⟩

/-- From the reply on, the iteration is the call of `ep0_write` with this data. -/
def WritesEp0 (ctrl : UsbCtrlRequest) (data : List UInt8) (es : Trace)
    (rest : Routine LoopState) : Prop := ∃ first resp fs vars,
  es = first :: ⟨.submit (controlRequest ctrl .in [] ctrl.wLength.toUInt32), .ok resp⟩ :: fs ∧
    resp.data = data ∧ After (RawGadgetDevice.ep0Write data >>= fun _ => pure vars) fs rest

theorem after_ep0Data {vars : LoopState} {es : Trace} {rest : Routine LoopState}
    (run : After (mainLoop vars) es rest) {ctrl : UsbCtrlRequest} {data : List UInt8}
    (passed : ep0Data es = some (ctrl, data)) : WritesEp0 ctrl data es rest := by
  unfold ep0Data at passed
  split at passed
  · next first request resp fs =>
    split at passed
    · next ctrl' event =>
      split at passed
      · next here =>
        obtain ⟨rfl, rfl⟩ := Prod.mk.inj (Option.some.inj passed)
        obtain ⟨first', fs', same, later⟩ :=
          after_mainLoop run ((eventOf_cons ..).trans event)
        obtain ⟨rfl, rfl⟩ := List.cons.inj same
        simp only [handleEvent, handleControl, here.1, handleControlIn, submit_bind,
          op_bind] at later
        rcases after_op_iff.mp later with ⟨nothing, _⟩ | ⟨reply, fs', same', last⟩
        · cases nothing
        · obtain ⟨head, rfl⟩ := List.cons.inj same'
          cases head
          simp only [ofResult_ok_bind, if_pos here.2, bind_assoc_prog] at last
          exact ⟨first, resp, fs, _, rfl, rfl, last⟩
      · cases passed
    · cases passed
  · cases passed

namespace System

/-- `data` is what the server has answered to `request`. It is no longer than
the header announces, so within the request if that is. -/
def PassesOn (s : System) (request : UrbRequest) (data : List UInt8)
    (given : List (UrbRequest × Except IoError RetSubmit)) : Prop :=
  ∃ header ret, (header, ret) ∈ s.bridge.split.decoded ∧ (request, .ok ret) ∈ given ∧
    ret.data = data ∧ data.length ≤ header.actualLength.toNat ∧
    (header.actualLength ≤ request.transferBufferLength →
      data.length ≤ request.transferBufferLength.toNat)

/-- What the host gets is as long as the server announces. -/
structure DataAsAnnounced (log : SystemLog) (s : System) : Prop where
  control : ∀ ctrl data, ep0Data s.main.trace = some (ctrl, data) →
    s.PassesOn (controlRequest ctrl .in [] ctrl.wLength.toUInt32) data (answers s.main.trace) ∧
      WritesEp0 ctrl data s.main.trace s.main.rest
  reports : ∀ t w, w ∈ workersOf t log → w.IsIn → ∀ data ∈ blocksWritten (history t log),
    s.PassesOn (w.request .in [] w.maxPacketSize) data (answers (history t log))

/-- The answers in the current iteration of the main thread were decoded. -/
structure Sourced (s : System) : Prop where
  genuine : s.bridge.Genuine
  main : ∀ request ret, (request, .ok ret) ∈ answers s.main.trace → ret ∈ s.bridge.split.replies

theorem Sourced.step {s s' : System} {a : Action} (h : s.Sourced) (move : s.step a = some s') :
    s'.Sourced := by
  have bridge : s'.bridge.Genuine ∧
      ∀ ret ∈ s.bridge.split.replies, ret ∈ s'.bridge.split.replies := by
    rcases step_bridge move with same | ⟨_, hop⟩
    · rw [same]
      exact ⟨h.genuine, fun _ => id⟩
    · exact ⟨h.genuine.step hop, (h.genuine.grown hop).2⟩
  obtain ⟨genuine, grown⟩ := bridge
  have kept (same : answers s'.main.trace = answers s.main.trace) : s'.Sourced :=
    ⟨genuine, fun request ret mem => grown ret (h.main request ret (same ▸ mem))⟩
  cases step_cases move with
  | thread live step => cases step <;> exact kept rfl
  | bridge => exact kept rfl
  | main step =>
    cases step with
    | submit => exact kept rfl
    | ioctl | spawn | join => exact kept (by simp [Activity.answered, answers])
    | next => exact ⟨genuine, by rintro _ _ ⟨⟩⟩
    | resume rest call pc =>
      refine ⟨genuine, fun request ret mem => ?_⟩
      simp only [Activity.answered, answers_append, answers_cons_submit, answers_nil] at mem
      rcases List.mem_append.mp mem with old | new
      · exact h.main request ret old
      · obtain ⟨rfl, rfl⟩ := Prod.mk.inj (List.mem_singleton.mp new)
        exact h.genuine.calls _ ret (.inr pc)

theorem sourced_of_run {build : Build} {input : Input} {output : Output} {busnum devnum : UInt32}
    {s : System}
    (run : Reaches System.step always (imported build input output busnum devnum) s) :
    s.Sourced := by
  refine run.invariant Sourced ⟨.initial _ rfl, by rintro _ _ ⟨⟩⟩ ?_
  exact fun _ _ _ h _ move => h.step move

theorem data_as_announced {build : Build} {input : Input} {output : Output} {busnum devnum : UInt32}
    {log : SystemLog} {s : System}
    (run : Logged perform (imported build input output busnum devnum) log s) :
    DataAsAnnounced log s := by
  have reached := run.reaches
  have sourced := sourced_of_run reached
  have fresh : Asked [] (UsbipConnection.imported input output busnum devnum).maps := by
    simp [Asked, UsbipConnection.imported]
  have faithful := Split.faithful_of_run fresh (Bridge.reaches_split (reaches_bridge reached))
  have passes {request : UrbRequest} {ret : RetSubmit}
      {given : List (UrbRequest × Except IoError RetSubmit)} (known : ret ∈ s.bridge.split.replies)
      (mem : (request, .ok ret) ∈ given) : s.PassesOn request ret.data given := by
    obtain ⟨⟨header, _⟩, decoded, rfl⟩ := List.mem_map.mp known
    obtain ⟨_, args, _, announced⟩ := faithful.decoded _ _ decoded
    have bounded := announced.length_le
    refine ⟨header, _, decoded, mem, rfl, bounded, fun asked => ?_⟩
    exact bounded.trans (UInt32.le_iff_toNat_le.mp asked)
  refine ⟨fun ctrl data passed => ?_, fun t w spawned isIn data written => ?_⟩
  · obtain ⟨_, _, standing⟩ := reaches_follows reached
    have writes := after_ep0Data standing passed
    obtain ⟨first, resp, fs, _, trace, rfl, _⟩ := id writes
    have answer : (controlRequest ctrl .in [] ctrl.wLength.toUInt32, .ok resp) ∈
        answers s.main.trace :=
      List.mem_filterMap.mpr ⟨⟨.submit _, .ok resp⟩, by simp [trace], rfl⟩
    exact ⟨passes (sourced.main _ resp answer) answer, writes⟩
  · obtain ⟨thread, rfl, past⟩ := (histories_of_run run).spawned spawned
    obtain ⟨rets, _, answered, blocks⟩ := past.inTrace isIn
    rw [blocks] at written
    obtain ⟨ret, hret, rfl⟩ := List.mem_map.mp written
    have answer : (thread.worker.inRequest, .ok ret) ∈ answers (history t log) :=
      answered.subset (List.mem_map_of_mem hret)
    obtain ⟨done, _, outcomes⟩ := past.calls
    have known : some (thread.worker.inRequest, .ok ret) ∈ done.map fun c =>
        (s.bridge.calls c).outcome := outcomes ▸ List.mem_map_of_mem answer
    obtain ⟨c, _, outcome⟩ := List.mem_map.mp known
    exact passes (sourced.genuine.calls c ret (.inr (Call.outcome_eq_some.mp outcome).2)) answer

end System

/-! ## Nothing longer than announced -/

/-- For any operations, any pace of the halves, any threads and any server. -/
theorem replies_as_announced {build : Build} {input : Input} {output : Output}
    {busnum devnum : UInt32} {log : OperationLog} {c : UsbipConnection}
    (run : Operates build (.imported input output busnum devnum) log c) :
    RepliesAsAnnounced log ∧
    (∀ s, Reaches Split.step always (.ofConnection build c) s →
      ∀ ret, s.reader = .returned (.ok (.submit ret)) → ∃ header args, (header, ret) ∈ s.decoded ∧
        s.AskedAs log c.nextSeqnum ret.seqnum args ∧ AsAnnounced args header ret) ∧
    ∀ programLog s,
      Logged System.perform (.imported build input output busnum devnum) programLog s →
        s.DataAsAnnounced programLog := by
  refine ⟨repliesAsAnnounced_of_operates run, fun s halves ret returned => ?_,
    fun programLog s program => System.data_as_announced program⟩
  have faithful := Split.faithful_of_run (asked_of_operates run) halves
  have known : ∀ ret ∈ s.reader.result, ret ∈ s.replies :=
    halves.invariant (fun s => ∀ ret ∈ s.reader.result, ret ∈ s.replies)
      (by simp [Split.ofConnection, ReaderPc.result])
      fun _ _ _ h _ step => (Split.step_replies h step).1
  obtain ⟨⟨header, _⟩, decoded, rfl⟩ :=
    List.mem_map.mp (known ret (by simp [returned, ReaderPc.result]))
  obtain ⟨_, args, asked, announced⟩ := faithful.decoded header _ decoded
  exact ⟨header, args, decoded, asked, announced⟩

/-- What a caller would have to rely on. -/
def RepliesWithinRequests (log : OperationLog) : Prop := ∀ earlier e later ret args,
  log = earlier ++ e :: later → e.output = .received (.ok (.submit ret)) →
    lastSubmit ret.seqnum earlier = some args → args.direction = .in →
      ret.data.length = ret.actualLength.toNat ∧
        ret.data.length ≤ args.transferBufferLength.toNat

/-- Nine bytes, where eight were asked for. -/
def overlong : List UInt8 := List.replicate 9 0xab

/-- A server that answers the first request so. -/
def generousServer : UsbipConnection :=
  .imported ⟨(System.answerTo 1 overlong).encode,
    ⟨.unexpectedEof, "failed to fill whole buffer"⟩⟩ ⟨[], []⟩ 1 2

def overlongRet : RetSubmit :=
  ⟨1, 0, 9, overlong, .in⟩

theorem generous_run : ∃ asked answered c, Operates .checked generousServer [asked, answered] c ∧
    lastSubmit 1 [asked] = some interruptUrb ∧
    answered.output = .received (.ok (.submit overlongRet)) := by
  have run : Operates .checked generousServer _ _ :=
    .next (a := .recv) (.next (a := .send (.submit interruptUrb)) .start rfl) rfl
  exact ⟨_, _, _, run, rfl, rfl⟩

/-- The answer is passed on in full. -/
theorem replies_as_announced_overlong : ∃ log c, Operates .checked generousServer log c ∧
    (∃ e ∈ log, e.output = .received (.ok (.submit overlongRet))) ∧ RepliesAsAnnounced log := by
  obtain ⟨asked, answered, c, run, _, output⟩ := generous_run
  exact ⟨_, c, run, ⟨answered, by simp, output⟩, (replies_as_announced run).1⟩

namespace System

/-- The host asks for two bytes, and the server answers with three. -/
def overlongControl : List Action :=
  .main (.ioctl (fetchedControl (getConfigDescriptor 2))) :: exchange 0 1 [9, 2, 25]

/-- The interrupt endpoint takes eight bytes, and the server answers with nine. -/
def overlongReport : List Action :=
  readConfig 0 1 configDescriptor ++ configured 1 2 ++ [.thread 0 .submit] ++ runCall 2 ++
    [.bridge (.deliver (answerTo 3 overlong).encode)] ++ List.replicate 8 (.bridge .reader) ++
    [.bridge (.call 2 []), .thread 0 .resume, .thread 0 (.ioctl done)]

def hasPassedOverlong (s : System) : Bool :=
  (ep0Data s.main.trace).any fun passed => decide (passed.1.wLength.toNat < passed.2.length)

def hasReportedOverlong (s : System) : Bool := (s.threads 0).any fun thread =>
  decide (thread.worker.IsIn ∧ thread.worker.maxPacketSize = 8 ∧
    blocksWritten thread.activity.trace = [overlong])

end System

/-- More than was asked for reaches the caller of `recv`, `ep0_write` and `ep_write`. -/
theorem longer_than_asked :
    (∃ log c, Operates .checked generousServer log c ∧ ¬ RepliesWithinRequests log) ∧
    (∃ s, Reaches System.step always System.device s ∧ ∃ ctrl data,
      WritesEp0 ctrl data s.main.trace s.main.rest ∧ ctrl.wLength.toNat < data.length) ∧
    ∃ log s w, Logged System.perform System.device log s ∧ w ∈ System.workersOf 0 log ∧ w.IsIn ∧
      ∃ data ∈ blocksWritten (System.history 0 log), w.maxPacketSize.toNat < data.length := by
  refine ⟨?_, ?_, ?_⟩
  · obtain ⟨asked, answered, c, run, last, output⟩ := generous_run
    refine ⟨_, c, run, fun within => ?_⟩
    obtain ⟨_, few⟩ := within [asked] answered [] overlongRet interruptUrb rfl output last rfl
    exact absurd few (by decide)
  · obtain ⟨s, run, found⟩ := Reaches.of_exec_any System.step always_of_anyStep System.device
      System.overlongControl System.hasPassedOverlong (by decide +kernel)
    obtain ⟨⟨ctrl, data⟩, passed, long⟩ := (Option.any_eq_true _ _).mp found
    obtain ⟨_, _, standing⟩ := System.reaches_follows run
    exact ⟨s, run, ctrl, data, after_ep0Data standing passed, of_decide_eq_true long⟩
  · obtain ⟨s, reached, found⟩ := Reaches.of_exec_any System.step always_of_anyStep System.device
      System.overlongReport System.hasReportedOverlong (by decide +kernel)
    obtain ⟨log, run⟩ := Logged.of_reaches reached
    obtain ⟨thread, live, here⟩ := (Option.any_eq_true _ _).mp found
    obtain ⟨isIn, size, written⟩ := of_decide_eq_true here
    obtain ⟨past, workers⟩ := (System.histories_of_run run).live live
    obtain ⟨ess, _, _, history⟩ := past.standing
    refine ⟨log, s, thread.worker, run, by simp [workers], isIn, overlong, ?_,
      by simp [size, overlong]⟩
    simp [history, written]

end UsbipDevirt
