import UsbipDevirt.Seqnum

/-!
# What the halves guarantee to each other

Facts about a split connection whose writer and reader are used by different
threads, for any bytes the server may send: a decoded RET_SUBMIT answers a
command that was issued with its sequence number, it carries the direction of
that command, and no sequence number is answered twice. They hold as long as
the counter has not gone round.

Run without interference, the steps of the reader amount to the sequential
`UsbipReader.recv`.
-/

namespace UsbipDevirt

namespace Split

/-! ## The reader on its own -/

/-- The state after a call of `recv` with this outcome. -/
def received (s : Split) (outcome : Except IoError UrbResponse × ReadSide)
    (decoded : List (RetSubmitHeader × RetSubmit)) : Split :=
  { s with
    arrived := outcome.2.input.bytes, shared := outcome.2.maps,
    reader := .returned outcome.1, decoded := s.decoded ++ decoded }

/-- On a stream that has ended, a reader that is never kept waiting for the
mutex returns what the sequential function returns and leaves the same maps. -/
theorem reader_alone {s : Split} {e : IoError} (start : s.reader = .header)
    (free : s.lock = none) (closed : s.closed = some e) :
    ∃ n decoded, Transition.exec step s (List.replicate n .reader) =
      some (s.received (UsbipReader.recv ⟨⟨s.arrived, e⟩, s.shared⟩) decoded) := by
  unfold UsbipReader.recv Input.readExact
  by_cases henough : 48 ≤ s.arrived.length
  · simp only [henough, if_true]
    cases hp : parseHeader (s.arrived.take 48) with
    | retSubmit header =>
      cases hd : s.shared.pending.lookup header.seqnum with
      | none =>
        refine ⟨3, [], ?_⟩
        simp [List.replicate, Transition.exec, step, readerStep, start, henough, hp, free, hd,
          received]
      | some direction =>
        by_cases hin : direction = .in ∧ 0 < header.actualLength
        · by_cases hdata : header.actualLength.toNat ≤ s.arrived.length - 48
          · refine ⟨4, [(header, header.toRet ((s.arrived.drop 48).take header.actualLength.toNat)
              direction)], ?_⟩
            simp [List.replicate, Transition.exec, step, readerStep, start, henough, hp, free, hd,
              hin, hdata, received, returnSubmit]
          · refine ⟨4, [], ?_⟩
            simp [List.replicate, Transition.exec, step, readerStep, start, henough, hp, free, hd,
              hin, hdata, received, closed]
        · refine ⟨4, [(header, header.toRet [] direction)], ?_⟩
          simp [List.replicate, Transition.exec, step, readerStep, start, henough, hp, free, hd,
            hin, received, returnSubmit]
    | retUnlink header =>
      refine ⟨3, [], ?_⟩
      simp [List.replicate, Transition.exec, step, readerStep, start, henough, hp, free, received]
    | unknown command =>
      refine ⟨1, [], ?_⟩
      simp [List.replicate, Transition.exec, step, readerStep, start, henough, hp, received]
  · refine ⟨1, [], ?_⟩
    simp [List.replicate, Transition.exec, step, readerStep, start, henough, closed, received]

end Split

/-! ## Who was given which number -/

/-- The command that was issued under `k`. -/
def IssuedAs (issued : List Command) (k : UInt32) (cmd : Command) : Prop :=
  ∃ i, issued[i]? = some cmd ∧ k = keyAt i

theorem keyAt_inj {i j : ℕ} (hi : i < 2 ^ 32) (hj : j < 2 ^ 32) (h : keyAt i = keyAt j) :
    i = j := by
  have := congrArg UInt32.toNat h
  simp only [keyAt, UInt32.toNat_ofNat'] at this
  omega

theorem IssuedAs.mono {issued more : List Command} {k : UInt32} {cmd : Command}
    (h : IssuedAs issued k cmd) : IssuedAs (issued ++ more) k cmd := by
  obtain ⟨i, hi, hk⟩ := h
  have hlt : i < issued.length := (List.getElem?_eq_some_iff.mp hi).1
  exact ⟨i, by rwa [List.getElem?_append_left hlt], hk⟩

theorem IssuedAs.unique {issued : List Command} {k : UInt32} {cmd cmd' : Command}
    (bound : issued.length ≤ 2 ^ 32) (h : IssuedAs issued k cmd) (h' : IssuedAs issued k cmd') :
    cmd = cmd' := by
  obtain ⟨i, hi, rfl⟩ := h
  obtain ⟨j, hj, hij⟩ := h'
  have hilt := (List.getElem?_eq_some_iff.mp hi).1
  have hjlt := (List.getElem?_eq_some_iff.mp hj).1
  obtain rfl := keyAt_inj (by omega) (by omega) hij
  exact Option.some.inj (hi.symm.trans hj)

/-- The next number to be handed out is new. -/
theorem IssuedAs.ne_next {issued : List Command} {k : UInt32} {cmd : Command}
    (bound : issued.length < 2 ^ 32) (h : IssuedAs issued k cmd) : k ≠ keyAt issued.length := by
  obtain ⟨i, hi, rfl⟩ := h
  have hilt := (List.getElem?_eq_some_iff.mp hi).1
  exact fun same => by have := keyAt_inj (by omega) bound same; omega

theorem issuedAs_last (issued : List Command) (cmd : Command) :
    IssuedAs (issued ++ [cmd]) (keyAt issued.length) cmd :=
  ⟨issued.length, by simp, rfl⟩

/-- `k` belongs to a CMD_SUBMIT with direction `d`. -/
def IssuedSubmit (issued : List Command) (k : UInt32) (d : Direction) : Prop :=
  ∃ args, IssuedAs issued k (.submit args) ∧ args.direction = d

theorem IssuedSubmit.mono {issued more : List Command} {k : UInt32} {d : Direction}
    (h : IssuedSubmit issued k d) : IssuedSubmit (issued ++ more) k d := by
  obtain ⟨args, hargs, hd⟩ := h
  exact ⟨args, hargs.mono, hd⟩

/-! ## The invariant of the halves -/

/-- The command that the writer is busy with. -/
def WriterPc.serving : WriterPc → Option (UInt32 × Command)
  | .lockInsert k cmd | .insert k cmd | .write k cmd => some (k, cmd)
  | .lockRemove k cmd _ | .remove k cmd _ => some (k, cmd)
  | .idle | .returned _ | .panicked => none

/-- The RET_SUBMIT that the reader is busy with. -/
def ReaderPc.answering : ReaderPc → Option RetSubmitHeader
  | .lockSubmit ret | .removeSubmit ret | .payload ret _ => some ret
  | _ => none

/-- Its sequence number, once the entry of that number is removed. -/
def ReaderPc.taken : ReaderPc → List UInt32
  | .payload ret _ => [ret.seqnum]
  | _ => []

namespace Split

/-- The numbers whose entries RET_SUBMITs have removed. -/
def answered (s : Split) : List UInt32 := s.decoded.map (·.2.seqnum) ++ s.reader.taken

structure Inv (s : Split) : Prop where
  counter : s.nextSeqnum = keyAt s.issued.length
  serving : ∀ k cmd, s.writer.serving = some (k, cmd) →
    ∃ n, s.issued.length = n + 1 ∧ s.issued[n]? = some cmd ∧ k = keyAt n
  result : ∀ k, s.writer = .returned (.ok k) → ∃ n, s.issued.length = n + 1 ∧ k = keyAt n
  recorded : ∀ k d, s.shared.pending.lookup k = some d → IssuedSubmit s.issued k d
  answering : ∀ header, s.reader.answering = some header → header.command = usbipRetSubmit
  taken : ∀ header d, s.reader = .payload header d → IssuedSubmit s.issued header.seqnum d
  decoded : ∀ header ret, (header, ret) ∈ s.decoded →
    header.command = usbipRetSubmit ∧ ret.seqnum = header.seqnum ∧
      IssuedSubmit s.issued ret.seqnum ret.direction
  fresh : ∀ k, s.writer.Inserting k → s.shared.pending.lookup k = none
  once : s.answered.Nodup
  gone : ∀ k ∈ s.answered, s.shared.pending.lookup k = none ∧ ¬ s.writer.Inserting k

theorem Inv.answered_issued {s : Split} (h : s.Inv) {k : UInt32} (hk : k ∈ s.answered) :
    ∃ d, IssuedSubmit s.issued k d := by
  rcases List.mem_append.mp hk with hk | hk
  · obtain ⟨⟨header, ret⟩, hmem, rfl⟩ := List.mem_map.mp hk
    exact ⟨_, (h.decoded header ret hmem).2.2⟩
  · cases hr : s.reader with
    | payload header d =>
      obtain rfl : k = header.seqnum := by simpa [hr, ReaderPc.taken] using hk
      exact ⟨d, h.taken header d hr⟩
    | _ => simp [hr, ReaderPc.taken] at hk

/-- Dropping entries hurts no number that has none. -/
theorem lookup_none_of_removed {maps maps' : SharedState} {k : UInt32}
    (removed : ∀ k d, maps'.pending.lookup k = some d → maps.pending.lookup k = some d)
    (h : maps.pending.lookup k = none) : maps'.pending.lookup k = none := by
  rw [Option.eq_none_iff_forall_ne_some]
  intro d hd
  simpa [h] using removed k d hd

/-- A step of the sending function that leaves it no entry to make. -/
theorem Inv.writer_at {s : Split} (h : s.Inv) (sent : List UInt8) (shared : SharedState)
    (lock : Option Half) (writer : WriterPc) (written : List (UInt32 × Command))
    (removed : ∀ k d, shared.pending.lookup k = some d → s.shared.pending.lookup k = some d)
    (serving : ∀ k cmd, writer.serving = some (k, cmd) → s.writer.serving = some (k, cmd))
    (result : ∀ k, writer = .returned (.ok k) → ∃ n, s.issued.length = n + 1 ∧ k = keyAt n)
    (entered : ∀ k, ¬ writer.Inserting k) : Inv { s with sent, shared, lock, writer, written } := by
  refine { h with serving := ?_, result, recorded := ?_, fresh := ?_, gone := ?_ }
  · exact fun k cmd hk => h.serving k cmd (serving k cmd hk)
  · exact fun k d hk => h.recorded k d (removed k d hk)
  · exact fun k hk => absurd hk (entered k)
  · exact fun k hk => ⟨lookup_none_of_removed removed (h.gone k hk).1, entered k⟩

theorem Inv.call {s t : Split} {cmd : Command} (h : s.Inv) (step : s.call cmd = some t)
    (bound : t.issued.length ≤ 2 ^ 32) : t.Inv := by
  obtain ⟨hidle, ⟨_, rfl⟩ | ⟨seqnum, next, halloc, rfl⟩⟩ := call_cases step
  · exact h.writer_at _ _ _ _ _ (fun _ _ => id) (by rintro _ _ ⟨⟩) (by rintro _ ⟨⟩)
      (by simp [WriterPc.Inserting])
  · obtain ⟨rfl, rfl, _⟩ := allocSeqnum_cases halloc
    simp only [List.length_append, List.length_singleton] at bound
    refine { h with
      counter := ?_, serving := ?_, result := by rintro _ ⟨⟩, recorded := ?_
      taken := ?_, decoded := ?_, fresh := ?_, gone := ?_ }
    · simp only [List.length_append, List.length_singleton, ← keyAt_succ, h.counter]
    · intro k cmd' hk
      obtain ⟨rfl, rfl⟩ := Prod.mk.inj (Option.some.inj hk)
      exact ⟨s.issued.length, by simp, by simp, h.counter⟩
    · exact fun k d hk => (h.recorded k d hk).mono
    · exact fun header d hr => (h.taken header d hr).mono
    · intro header ret hmem
      obtain ⟨hcommand, hseq, hissued⟩ := h.decoded header ret hmem
      exact ⟨hcommand, hseq, hissued.mono⟩
    · rintro k ⟨_, hpc | hpc⟩
      · obtain ⟨rfl, rfl⟩ := WriterPc.lockInsert.inj hpc
        rw [Option.eq_none_iff_forall_ne_some]
        intro d hd
        obtain ⟨args, hissued, _⟩ := h.recorded _ d hd
        exact hissued.ne_next (by omega) h.counter
      · cases hpc
    · intro k hk
      refine ⟨(h.gone k hk).1, ?_⟩
      rintro ⟨_, hpc | hpc⟩
      · obtain ⟨d, args, hissued, _⟩ := h.answered_issued hk
        apply hissued.ne_next (by omega)
        rw [← h.counter]
        exact (WriterPc.lockInsert.inj hpc).1.symm
      · cases hpc

theorem Inv.writerStep {s t : Split} {fates : List Fate} (h : s.Inv)
    (step : s.writerStep fates = some t) : t.Inv := by
  cases writerStep_cases step with
  | lockInsert pc free =>
    refine { h with serving := ?_, result := by rintro _ ⟨⟩, fresh := ?_, gone := ?_ }
    · exact fun k cmd hk => h.serving k cmd (by rw [pc]; exact hk)
    · rintro k ⟨_, hpc | hpc⟩
      · cases hpc
      · obtain ⟨rfl, rfl⟩ := WriterPc.insert.inj hpc
        exact h.fresh _ ⟨_, .inl pc⟩
    · intro k hk
      refine ⟨(h.gone k hk).1, ?_⟩
      rintro ⟨_, hpc | hpc⟩
      · cases hpc
      · obtain ⟨rfl, rfl⟩ := WriterPc.insert.inj hpc
        exact (h.gone _ hk).2 ⟨_, .inl pc⟩
  | @insert seqnum cmd pc =>
    obtain ⟨n, hlen, hcmd, rfl⟩ := h.serving seqnum cmd (by simp [pc, WriterPc.serving])
    refine { h with
      serving := ?_, result := by rintro _ ⟨⟩, recorded := ?_, fresh := ?_, gone := ?_ }
    · exact fun k cmd hk => h.serving k cmd (by rw [pc]; exact hk)
    · intro k d hk
      cases cmd with
      | submit args =>
        simp only [SharedState.register, Table.lookup_insert] at hk
        split at hk
        · next hkey => exact ⟨args, ⟨n, hcmd, hkey⟩, Option.some.inj hk⟩
        · exact h.recorded k d hk
      | unlink target => exact h.recorded k d hk
    · simp [WriterPc.Inserting]
    · intro k hk
      refine ⟨?_, by simp [WriterPc.Inserting]⟩
      have hne : k ≠ keyAt n := by
        rintro rfl
        exact (h.gone _ hk).2 ⟨_, .inr pc⟩
      cases cmd with
      | submit args => simpa [SharedState.register, hne] using (h.gone k hk).1
      | unlink target => exact (h.gone k hk).1
  | @written seqnum cmd out pc ok =>
    obtain ⟨n, hlen, hcmd, rfl⟩ := h.serving seqnum cmd (by simp [pc, WriterPc.serving])
    refine h.writer_at _ _ _ _ _ (fun _ _ => id) (by rintro _ _ ⟨⟩) ?_
      (by simp [WriterPc.Inserting])
    intro k hk
    exact ⟨n, hlen, (Except.ok.inj (WriterPc.returned.inj hk)).symm⟩
  | failed pc error | lockRemove pc free =>
    exact h.writer_at _ _ _ _ _ (fun _ _ => id) (fun k cmd hk => by rw [pc]; exact hk)
      (by rintro _ ⟨⟩) (by simp [WriterPc.Inserting])
  | remove pc =>
    exact h.writer_at _ _ _ _ _ (fun _ _ => SharedState.lookup_of_unregister) (by rintro _ _ ⟨⟩)
      (by rintro _ ⟨⟩) (by simp [WriterPc.Inserting])

/-- A step of the reader that takes no entry for itself. -/
theorem Inv.reader_at {s : Split} (h : s.Inv) (arrived : List UInt8) (shared : SharedState)
    (lock : Option Half) (reader : ReaderPc)
    (removed : ∀ k d, shared.pending.lookup k = some d → s.shared.pending.lookup k = some d)
    (answering : ∀ header, reader.answering = some header → header.command = usbipRetSubmit)
    (untaken : reader.taken = []) : Inv { s with arrived, shared, lock, reader } := by
  have fewer : ∀ k ∈ Split.answered { s with arrived, shared, lock, reader }, k ∈ s.answered := by
    intro k hk
    simp only [Split.answered, untaken, List.append_nil] at hk
    exact List.mem_append_left _ hk
  refine { h with
    recorded := ?_, answering, taken := ?_, fresh := ?_, once := ?_, gone := ?_ }
  · exact fun k d hk => h.recorded k d (removed k d hk)
  · rintro header d rfl
    cases untaken
  · exact fun k hk => lookup_none_of_removed removed (h.fresh k hk)
  · simp only [Split.answered, untaken, List.append_nil]
    exact (List.nodup_append.mp h.once).1
  · intro k hk
    obtain ⟨hnone, hins⟩ := h.gone k (fewer k hk)
    exact ⟨lookup_none_of_removed removed hnone, hins⟩

theorem Inv.readerStep {s t : Split} (h : s.Inv) (step : s.readerStep = some t) : t.Inv := by
  cases readerStep_cases step with
  | @submitHeader header pc enough parsed =>
    refine h.reader_at _ _ _ _ (fun _ _ => id) ?_ rfl
    rintro _ ⟨⟩
    exact ((parseHeader_retSubmit_iff (List.length_take_of_le enough) header).mp parsed).1
  | unlinkHeader | unknownCommand | ended | lockUnlink =>
    exact h.reader_at _ _ _ _ (fun _ _ => id) (by rintro _ ⟨⟩) rfl
  | @lockSubmit header pc free =>
    refine h.reader_at _ _ _ _ (fun _ _ => id) ?_ rfl
    rintro _ ⟨⟩
    exact h.answering _ (by simp [pc, ReaderPc.answering])
  | unknownSeqnum pc absent =>
    exact h.reader_at _ _ _ _ (fun _ _ => Table.lookup_of_erase) (by rintro _ ⟨⟩) rfl
  | @removeSubmit header direction pc present =>
    have same : s.answered = s.decoded.map (·.2.seqnum) := by
      simp [Split.answered, pc, ReaderPc.taken]
    have new : header.seqnum ∉ s.answered := by
      intro hk
      simp [(h.gone _ hk).1] at present
    refine { h with
      recorded := ?_, answering := ?_, taken := ?_, fresh := ?_, once := ?_, gone := ?_ }
    · exact fun k d hk => h.recorded k d (Table.lookup_of_erase hk)
    · rintro _ ⟨⟩
      exact h.answering _ (by simp [pc, ReaderPc.answering])
    · rintro _ _ ⟨⟩
      exact h.recorded _ _ present
    · exact fun k hk => lookup_none_of_removed (fun _ _ => Table.lookup_of_erase) (h.fresh k hk)
    · simp only [Split.answered, ReaderPc.taken]
      rw [← same, List.nodup_append]
      refine ⟨h.once, by simp, ?_⟩
      rintro k hk _ hkey rfl
      obtain rfl := List.mem_singleton.mp hkey
      exact new hk
    · intro k hk
      simp only [Split.answered, ReaderPc.taken] at hk
      rw [← same, List.mem_append, List.mem_singleton] at hk
      rcases hk with hk | rfl
      · obtain ⟨hnone, hins⟩ := h.gone k hk
        exact ⟨lookup_none_of_removed (fun _ _ => Table.lookup_of_erase) hnone, hins⟩
      · refine ⟨by simp, fun hins => ?_⟩
        simp [h.fresh _ hins] at present
  | @payload header direction n pc amount enough =>
    have same : (returnSubmit { s with arrived := s.arrived.drop n } header (s.arrived.take n)
        direction).answered = s.answered := by
      simp only [Split.answered, returnSubmit, pc, ReaderPc.taken, List.map_append, List.map_cons,
        List.map_nil, List.append_nil, RetSubmitHeader.toRet]
    refine { h with
      answering := by rintro _ ⟨⟩, taken := by rintro _ _ ⟨⟩
      decoded := ?_, once := ?_, gone := ?_ }
    · intro header' ret hmem
      rcases List.mem_append.mp hmem with hmem | hmem
      · exact h.decoded header' ret hmem
      · obtain ⟨rfl, rfl⟩ := Prod.mk.inj (List.mem_singleton.mp hmem)
        exact ⟨h.answering _ (by simp [pc, ReaderPc.answering]), rfl, h.taken _ _ pc⟩
    · exact same ▸ h.once
    · exact same ▸ h.gone
  | removeUnlink pc =>
    exact h.reader_at _ _ _ _ (fun _ _ => SharedState.lookup_of_applyUnlink) (by rintro _ ⟨⟩) rfl

theorem Inv.step {s t : Split} {a : Action} (h : s.Inv) (step : s.step a = some t)
    (bound : t.issued.length ≤ 2 ^ 32) : t.Inv := by
  cases step_cases step with
  | overflow | call => exact h.call step bound
  | writer => exact h.writerStep step
  | collect pc =>
    exact h.writer_at _ _ _ _ _ (fun _ _ => id) (by rintro _ _ ⟨⟩) (by rintro _ ⟨⟩)
      (by simp [WriterPc.Inserting])
  | reader => exact h.readerStep step
  | takeResponse pc => exact h.reader_at _ _ _ _ (fun _ _ hk => hk) (by rintro _ ⟨⟩) rfl
  | deliver | close => exact { h with }

/-- Only the entry of a sending function records a command. -/
theorem step_issued {s t : Split} {a : Action} (step : s.step a = some t) :
    t.issued = s.issued ∨ ∃ cmd, a = .call cmd ∧ t.issued = s.issued ++ [cmd] := by
  cases step_cases step with
  | call => exact .inr ⟨_, rfl, rfl⟩
  | writer move => cases move <;> exact .inl rfl
  | reader move => cases move <;> exact .inl rfl
  | overflow | collect | takeResponse | deliver | close => exact .inl rfl

theorem Inv.initial (build : Build) (input : Input) (output : Output) (busnum devnum : UInt32) :
    Inv (ofConnection build (.imported input output busnum devnum)) where
  counter := rfl
  serving := nofun
  result := nofun
  recorded := by simp [ofConnection, UsbipConnection.imported]
  answering := nofun
  taken := nofun
  decoded := by simp [ofConnection]
  fresh := by simp [ofConnection, WriterPc.Inserting]
  once := by simp [answered, ofConnection, ReaderPc.taken]
  gone := by simp [answered, ofConnection, ReaderPc.taken]

end Split

end UsbipDevirt
