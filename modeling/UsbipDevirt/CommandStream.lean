import Mathlib.Data.UInt
import UsbipDevirt.Framing
import UsbipDevirt.Operations

/-!
# Reading the command stream back

A server that finds the commands on the stream also understands them: from the
bytes of any list of calls whose OUT transfers announce what they carry, it
recovers the calls with all their arguments. An IN transfer puts no data on the
wire.
-/

namespace UsbipDevirt

open Bytes Transition

/-! ## A server understanding commands -/

/-- A command as the server sees it. -/
structure ReadCommand where
  seqnum : UInt32
  busnum : UInt32
  devnum : UInt32
  command : Command
  deriving DecidableEq

def directionOf (word : UInt32) : Option Direction :=
  if word = 0 then some .out else if word = 1 then some .in else none

def CmdSubmitHeader.read (header : CmdSubmitHeader) (direction : Direction)
    (payload : List UInt8) : ReadCommand where
  seqnum := header.seqnum
  busnum := header.devid >>> 16
  devnum := header.devid &&& 0xffff
  command := .submit
    { ep := header.ep
      direction := direction
      transferFlags := header.transferFlags
      transferBufferLength := header.transferBufferLength
      setup := header.setup
      data := payload
      interval := header.interval }

def CmdUnlinkHeader.read (header : CmdUnlinkHeader) : ReadCommand where
  seqnum := header.seqnum
  busnum := header.devid >>> 16
  devnum := header.devid &&& 0xffff
  command := .unlink header.unlinkSeqnum

/-- The next command and what comes after it. The layout of a header depends on
its first word. -/
def readCommand (bytes : List UInt8) : Option (ReadCommand × List UInt8) :=
  (takeCommand bytes).bind fun ((header, payload), rest) =>
    if header.command = usbipCmdSubmit then
      (directionOf header.direction).map fun direction => (header.read direction payload, rest)
    else if header.command = usbipCmdUnlink then
      some ((CmdUnlinkHeader.format.get (bytes.take 48)).read, rest)
    else none

/-- All commands, with a bound on their number. -/
def readCommands : ℕ → List UInt8 → Option (List ReadCommand)
  | _, [] => some []
  | 0, _ :: _ => none
  | fuel + 1, bytes =>
    (readCommand bytes).bind fun (cmd, rest) => (readCommands fuel rest).map (cmd :: ·)

/-- The commands that a stream consists of. -/
def decodeCommands (bytes : List UInt8) : Option (List ReadCommand) :=
  readCommands bytes.length bytes

/-! ## One command -/

/-- What of a call reaches the server. -/
def Command.transmitted : Command → Command
  | .submit args => .submit { args with data := args.payload }
  | .unlink target => .unlink target

def Command.Framed : Command → Prop
  | .submit args => args.Framed
  | .unlink _ => True

theorem directionOf_toUInt32 (d : Direction) : directionOf d.toUInt32 = some d := by
  cases d <;> rfl

/-- The packed device number splits back. -/
theorem devid_split {busnum devnum : UInt32} (hb : busnum < 2 ^ 16) (hd : devnum < 2 ^ 16) :
    ((busnum <<< 16) ||| devnum) >>> 16 = busnum ∧
      ((busnum <<< 16) ||| devnum) &&& 0xffff = devnum := by
  rw [UInt32.lt_iff_toNat_lt] at hb hd
  have hb : busnum.toNat < 65536 := hb
  have hd : devnum.toNat < 2 ^ 16 := hd
  have packed : ((busnum <<< 16) ||| devnum).toNat = busnum.toNat * 2 ^ 16 + devnum.toNat := by
    have shifted : (busnum <<< 16).toNat = busnum.toNat <<< 16 := by
      rw [UInt32.toNat_shiftLeft]
      have : busnum.toNat <<< 16 < 2 ^ 32 := by
        rw [Nat.shiftLeft_eq]
        omega
      exact Nat.mod_eq_of_lt this
    rw [UInt32.toNat_or, shifted, ← Nat.shiftLeft_add_eq_or_of_lt hd, Nat.shiftLeft_eq]
  constructor
  · apply UInt32.toNat_inj.mp
    rw [UInt32.toNat_shiftRight, packed]
    change (busnum.toNat * 2 ^ 16 + devnum.toNat) >>> 16 = busnum.toNat
    rw [Nat.shiftRight_eq_div_pow]
    omega
  · apply UInt32.toNat_inj.mp
    rw [UInt32.toNat_and, packed]
    change (busnum.toNat * 2 ^ 16 + devnum.toNat) &&& (2 ^ 16 - 1) = devnum.toNat
    rw [Nat.and_two_pow_sub_one_eq_mod]
    omega

/-- The server reads a framed command as it was meant, and is then at the next one. -/
theorem readCommand_encode {cmd : Command} (framed : cmd.Framed) (seqnum devid : UInt32)
    (after : List UInt8) :
    readCommand (cmd.encode seqnum devid ++ after) =
      some (⟨seqnum, devid >>> 16, devid &&& 0xffff, cmd.transmitted⟩, after) := by
  cases cmd with
  | submit args =>
    have taken := (takeCommand_encode_iff args seqnum devid after after).mpr ⟨framed, rfl⟩
    have command : (args.header seqnum devid).command = usbipCmdSubmit := rfl
    have direction : directionOf (args.header seqnum devid).direction = some args.direction :=
      directionOf_toUInt32 _
    simp only [readCommand, taken, Option.bind_some, command, if_true, direction, Option.map_some]
    rfl
  | unlink target =>
    have width := CmdUnlinkHeader.format.length_put (unlinkHeader seqnum devid target)
    rw [CmdUnlinkHeader.format_width] at width
    have head : ((Command.unlink target).encode seqnum devid ++ after).take 48 =
        CmdUnlinkHeader.format.put (unlinkHeader seqnum devid target) := List.take_left' width
    have rest : ((Command.unlink target).encode seqnum devid ++ after).drop 48 = after :=
      List.drop_left' width
    have enough : 48 ≤ ((Command.unlink target).encode seqnum devid ++ after).length := by
      rw [List.length_append, Command.encode, width]
      omega
    -- the first word is the same field in both layouts
    have command : (CmdSubmitHeader.format.get
        (CmdUnlinkHeader.format.put (unlinkHeader seqnum devid target))).command =
          usbipCmdUnlink :=
      congrArg CmdUnlinkHeader.command
        (CmdUnlinkHeader.format.get_put (unlinkHeader seqnum devid target))
    have other : usbipCmdUnlink ≠ usbipCmdSubmit := by decide
    have bare : (CmdSubmitHeader.format.get
        (CmdUnlinkHeader.format.put (unlinkHeader seqnum devid target))).follows = 0 := by
      simp [CmdSubmitHeader.follows, command, other]
    simp only [readCommand, takeCommand, head, rest, bare, Nat.add_zero, enough, if_true,
      Option.bind_some, command, other, if_false, CmdUnlinkHeader.format.get_put, List.drop_zero]
    rfl

/-! ## Whole streams -/

/-- The bytes of these commands, one after the other. -/
def encodeCommands (devid : UInt32) (cmds : List (UInt32 × Command)) : List UInt8 :=
  cmds.flatMap fun (seqnum, cmd) => cmd.encode seqnum devid

theorem Command.encode_length (cmd : Command) (seqnum devid : UInt32) :
    48 ≤ (cmd.encode seqnum devid).length := by
  cases cmd with
  | submit args =>
    rw [encode, List.length_append, Bytes.Format.length_put, CmdSubmitHeader.format_width]
    omega
  | unlink target => rw [encode, Bytes.Format.length_put, CmdUnlinkHeader.format_width]

theorem length_encodeCommands (devid : UInt32) (cmds : List (UInt32 × Command)) :
    cmds.length ≤ (encodeCommands devid cmds).length := by
  induction cmds with
  | nil => simp
  | cons cmd cmds ih =>
    have := cmd.2.encode_length cmd.1 devid
    simp only [encodeCommands, List.flatMap_cons, List.length_append, List.length_cons] at ih ⊢
    omega

theorem readCommands_succ (fuel : ℕ) {bytes : List UInt8} (more : bytes ≠ []) :
    readCommands (fuel + 1) bytes = (readCommand bytes).bind fun (cmd, rest) =>
      (readCommands fuel rest).map (cmd :: ·) := by
  cases bytes with
  | nil => exact absurd rfl more
  | cons => rfl

theorem readCommands_encode (devid : UInt32) (cmds : List (UInt32 × Command))
    (framed : ∀ cmd ∈ cmds, cmd.2.Framed) {fuel : ℕ} (enough : cmds.length ≤ fuel) :
    readCommands fuel (encodeCommands devid cmds) = some (cmds.map fun (seqnum, cmd) =>
      ⟨seqnum, devid >>> 16, devid &&& 0xffff, cmd.transmitted⟩) := by
  induction cmds generalizing fuel with
  | nil => cases fuel <;> rfl
  | cons cmd cmds ih =>
    obtain ⟨fuel, rfl⟩ : ∃ n, fuel = n + 1 := ⟨fuel - 1, by simp at enough; omega⟩
    obtain ⟨first, others⟩ := List.forall_mem_cons.mp framed
    have length := cmd.2.encode_length cmd.1 devid
    have more : cmd.2.encode cmd.1 devid ++ encodeCommands devid cmds ≠ [] := by
      intro empty
      have none_left := congrArg List.length empty
      rw [List.length_append, List.length_nil] at none_left
      omega
    change readCommands (fuel + 1) (cmd.2.encode cmd.1 devid ++ encodeCommands devid cmds) = _
    rw [readCommands_succ fuel more, readCommand_encode first]
    simp only [Option.bind_some, ih others (by simpa using enough), Option.map_some, List.map_cons]

theorem Output.Accepts.write {w : Output} (h : w.Accepts) (cmd : Command)
    (seqnum devid : UInt32) : ∃ w', cmd.write w seqnum devid = (.ok (), w') ∧ w'.Accepts := by
  cases cmd with
  | submit args =>
    obtain ⟨w₁, head, h₁⟩ := h.writeAll (CmdSubmitHeader.format.put (args.header seqnum devid))
    simp only [Command.write, writeCmdSubmit, head]
    split
    · obtain ⟨w₂, body, h₂⟩ := h₁.writeAll args.data
      simp only [body]
      exact h₂.writeAll []
    · exact h₁.writeAll []
  | unlink target =>
    obtain ⟨w₁, head, h₁⟩ :=
      h.writeAll (CmdUnlinkHeader.format.put (unlinkHeader seqnum devid target))
    simp only [Command.write, writeCmdUnlink, head]
    exact h₁.writeAll []

theorem devid_of_operates {build : Build} {start c : UsbipConnection} {log : OperationLog}
    (run : Operates build start log c) : c.devid = start.devid := by
  induction run with
  | start => rfl
  | next _ step ih => exact (UsbipConnection.perform_devid step).trans ih

/-- What a run of sends has written and returned. -/
theorem sends_written {build : Build} {c c' : UsbipConnection} {log : OperationLog}
    (accepts : c.output.Accepts) (run : Operates build c log c')
    (sends : ∀ e ∈ log, ∃ cmd, e.action = .send cmd) :
    c'.output.Accepts ∧ ∃ cmds : List (UInt32 × Command),
      log.map Entry.action = cmds.map (fun cmd => .send cmd.2) ∧
      log.map Entry.output = cmds.map (fun cmd => .sent (.ok cmd.1)) ∧
      c'.output.sent = c.output.sent ++ encodeCommands c.devid cmds := by
  induction run with
  | start => exact ⟨accepts, [], rfl, rfl, by simp [encodeCommands]⟩
  | @next log s t a o run step ih =>
    obtain ⟨ready, cmds, actions, outputs, sent⟩ :=
      ih fun e he => sends e (List.mem_append_left _ he)
    obtain ⟨cmd, rfl⟩ : ∃ cmd, a = .send cmd := sends ⟨s, a, o, t⟩ (by simp)
    obtain ⟨w, write, still⟩ := ready.write cmd s.nextSeqnum s.devid
    cases UsbipConnection.perform_cases step with
    | @sent _ _ output _ ok =>
      obtain rfl : w = output := (Prod.mk.inj (write.symm.trans ok)).2
      refine ⟨still, cmds ++ [(s.nextSeqnum, cmd)], by simp [actions], by simp [outputs], ?_⟩
      change w.sent = _
      rw [Command.write_ok ok, sent, devid_of_operates run]
      simp [encodeCommands]
    | failed _ error =>
      rw [write] at error
      cases error

/-- Whatever list of calls a connection makes on a socket that takes every
write, a server decodes the bytes to that list, with the numbers that the calls
have returned. -/
theorem commands_decoded (build : Build) (input : Input) (output : Output)
    (busnum devnum : UInt32) (hb : busnum < 2 ^ 16) (hd : devnum < 2 ^ 16)
    (before log : OperationLog) (c c' : UsbipConnection)
    (reached : Operates build (.imported input output busnum devnum) before c)
    (accepts : c.output.Accepts) (run : Operates build c log c') (calls : List Command)
    (made : log.map Entry.action = calls.map .send) (framed : ∀ cmd ∈ calls, cmd.Framed) :
    ∃ seqnums : List UInt32, log.map Entry.output = seqnums.map (fun k => .sent (.ok k)) ∧
      ∃ bytes, c'.output.sent = c.output.sent ++ bytes ∧
        decodeCommands bytes = some (List.zipWith
          (fun k cmd => ⟨k, busnum, devnum, cmd.transmitted⟩) seqnums calls) := by
  have sends : ∀ e ∈ log, ∃ cmd, e.action = .send cmd := by
    intro e he
    have mem : e.action ∈ calls.map .send := made ▸ List.mem_map_of_mem he
    obtain ⟨cmd, _, same⟩ := List.mem_map.mp mem
    exact ⟨cmd, same.symm⟩
  obtain ⟨_, cmds, actions, outputs, sent⟩ := sends_written accepts run sends
  obtain rfl : calls = cmds.map Prod.snd := by
    have same : calls.map Operation.send = (cmds.map Prod.snd).map .send := by
      rw [← made, actions, List.map_map]
      rfl
    exact List.map_injective_iff.mpr (fun _ _ h => Operation.send.inj h) same
  refine ⟨cmds.map Prod.fst, by rw [outputs, List.map_map]; rfl, _, sent, ?_⟩
  have all : ∀ cmd ∈ cmds, cmd.2.Framed := fun cmd h => framed _ (List.mem_map_of_mem h)
  rw [decodeCommands, readCommands_encode c.devid cmds all (length_encodeCommands c.devid cmds),
    devid_of_operates reached]
  obtain ⟨bus, dev⟩ := devid_split hb hd
  simp only [UsbipConnection.imported, bus, dev, List.zipWith_map, List.zipWith_self]

/-- A request and its cancellation, read back. -/
theorem commands_decoded_cancelled : ∃ log c', Operates .checked silentServer log c' ∧
    ∃ seqnums : List UInt32, log.map Entry.output = seqnums.map (fun k => .sent (.ok k)) ∧
      ∃ bytes, c'.output.sent = silentServer.output.sent ++ bytes ∧
        decodeCommands bytes = some (List.zipWith
          (fun k cmd => ⟨k, 1, 2, Command.transmitted cmd⟩) seqnums
            [Command.submit interruptUrb, .unlink 1]) := by
  have run : Operates .checked silentServer _ _ :=
    .next (a := .send (.unlink 1)) (.next (a := .send (.submit interruptUrb)) .start rfl) rfl
  have framed : ∀ cmd ∈ [Command.submit interruptUrb, .unlink 1], cmd.Framed := by
    simp [Command.Framed, SubmitArgs.Framed, interruptUrb]
  exact ⟨_, _, run, commands_decoded .checked _ _ 1 2 (by decide) (by decide) [] _ silentServer _
    .start (by simp [Output.Accepts, silentServer, UsbipConnection.imported]) run _ rfl framed⟩

end UsbipDevirt
