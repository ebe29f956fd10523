import UsbipDevirt.Completion
import UsbipDevirt.Grammar

/-!
# Alternate settings

A configuration descriptor is followed by interface descriptors, one for each
setting of each interface, and each of these by the endpoint descriptors of the
setting. The scan for endpoint descriptors does not look at the interface
descriptors between them, so SET_CONFIGURATION activates all settings at once.
-/

namespace UsbipDevirt

open Program Program.Prog RawGadgetDevice

/-! ## Threads started in a trace -/

/-- The data threads spawned in a trace. -/
def spawnedWorkers (es : Trace) : List Worker := es.filterMap fun e =>
  match e.op with
  | .spawn worker => some worker
  | _ => none

def NotSpawn (o : Op) : Prop := ∀ worker, o ≠ .spawn worker

@[simp] theorem spawnedWorkers_append (es fs : Trace) :
    spawnedWorkers (es ++ fs) = spawnedWorkers es ++ spawnedWorkers fs :=
  List.filterMap_append

theorem spawnedWorkers_eq_nil {es : Trace} (h : ∀ e ∈ es, NotSpawn e.op) :
    spawnedWorkers es = [] := by
  refine List.filterMap_eq_nil_iff.mpr fun e he => ?_
  split
  · next worker hop => exact absurd hop (h e he worker)
  · rfl

theorem spawnedWorkers_spawnEpThreads {workers : List Worker} {es : Trace}
    {r : Except IoError (List ThreadId)} (run : Runs (spawnEpThreads workers) es r) :
    spawnedWorkers es = workers := by
  induction workers generalizing es r with
  | nil =>
    obtain ⟨rfl, _⟩ := runs_done_iff.mp run
    rfl
  | cons worker workers ih =>
    simp only [spawnEpThreads, spawn_bind, runs_op_iff] at run
    obtain ⟨thread, rest, rfl, hrest⟩ := run
    obtain ⟨r', hrest⟩ := Runs.of_bind_pure hrest
    exact congrArg (worker :: ·) (ih hrest)

theorem length_enableEndpoints (descs : List UsbEndpointDescriptor) :
    Returns (fun handles => handles.length = descs.length) (enableEndpoints descs) := by
  induction descs with
  | nil => rfl
  | cons desc descs ih =>
    refine Returns.bind fun handle => ih.seq fun handles same => ?_
    exact congrArg (· + 1) same

/-- What lies between enabling the endpoints and serving them. -/
def acknowledge (configData : List UInt8) : Routine Unit := do
  drawPower configData
  configure
  let _ ← ep0Read []

theorem uses_acknowledge {P : Op → Prop}
    (ioctls : ∀ call, (∀ desc, call ≠ .epEnable desc) → P (.ioctl call)) (configData : List UInt8) :
    Uses P (acknowledge configData) := by
  refine (uses_drawPower (fun _ => ioctls _ (by simp)) _).bind fun _ => ?_
  refine (uses_configure (ioctls _ (by simp))).bind fun _ => ?_
  exact (uses_ep0Read (fun _ => ioctls _ (by simp)) _).bind fun _ => trivial

theorem performs_acknowledge (configData : List UInt8) :
    Performs (acknowledge configData) [.ep0Read (ep0Header 0)] :=
  (performs_drawPower _).bind fun _ => performs_configure.bind fun _ =>
    (performs_ep0Read _).bind fun _ => performs_return _

theorem activate_eq (configData : List UInt8) :
    activate configData = enableEndpoints (parseEndpointDescriptors configData) >>= fun handles =>
      acknowledge configData >>= fun _ =>
        spawnEpThreads ((parseEndpointDescriptors configData).zipWith Worker.mk handles) := by
  simp only [acknowledge, bind_assoc_prog]
  rfl

theorem map_desc_zipWith {descs : List UsbEndpointDescriptor} {handles : List EpHandle}
    (length : handles.length = descs.length) :
    (descs.zipWith Worker.mk handles).map Worker.desc = descs := by
  induction descs generalizing handles with
  | nil => rfl
  | cons desc descs ih =>
    cases handles with
    | nil => cases length
    | cons handle handles => exact congrArg (desc :: ·) (ih (Nat.succ.inj length))

/-- If every ioctl succeeds, each endpoint of the descriptor is enabled and served. -/
theorem activates {configData : List UInt8} {es : Trace} {r : Except IoError (List ThreadId)}
    (run : Runs (activate configData) es r) (succeed : IoctlsSucceed es) :
    enables es = parseEndpointDescriptors configData ∧
      (spawnedWorkers es).map Worker.desc = parseEndpointDescriptors configData := by
  rw [activate_eq] at run
  rcases runs_bind_iff.mp run with ⟨e, failed, _⟩ | ⟨handles, first, rest, rfl, enabled, others⟩
  · obtain ⟨_, _, _, ⟨⟩⟩ := performs_enableEndpoints _ es _ failed succeed
  obtain ⟨firstSucceed, restSucceed⟩ := (ioctlsSucceed_append ..).mp succeed
  rcases runs_bind_iff.mp others with ⟨e, failed, _⟩ | ⟨_, mid, last, rfl, between, spawned⟩
  · obtain ⟨_, _, _, ⟨⟩⟩ := performs_acknowledge _ rest _ failed restSucceed
  have length := (length_enableEndpoints _).of_runs enabled
  have enabling : Uses NotSpawn (enableEndpoints (parseEndpointDescriptors configData)) :=
    uses_enableEndpoints (fun _ _ => by simp) _
  have spawning : Uses NotEnable
      (spawnEpThreads ((parseEndpointDescriptors configData).zipWith Worker.mk handles)) :=
    uses_spawnEpThreads (fun _ _ => by simp) _
  have idleEnable : Uses NotEnable (acknowledge configData) :=
    uses_acknowledge (fun call h desc hop => h desc (Op.ioctl.inj hop)) _
  have idleSpawn : Uses NotSpawn (acknowledge configData) :=
    uses_acknowledge (fun _ _ _ => by simp) _
  rw [enables_append, enables_append, enables_eq_nil (idleEnable.after between).1,
    enables_eq_nil (spawning.after spawned).1, spawnedWorkers_append, spawnedWorkers_append,
    spawnedWorkers_eq_nil (enabling.after enabled).1,
    spawnedWorkers_eq_nil (idleSpawn.after between).1, spawnedWorkers_spawnEpThreads spawned]
  refine ⟨?_, map_desc_zipWith length⟩
  rw [List.append_nil, List.append_nil]
  exact ((enables_enableEndpoints enabled).2 firstSucceed).1

/-! ## Well-formed descriptors -/

def usbDtConfig : UInt8 := 0x02
def usbDtInterface : UInt8 := 0x04

/-- An interface descriptor and the descriptors that follow it. -/
structure Setting where
  interface : List UInt8
  others : List (List UInt8)

namespace Setting

/-- `bAlternateSetting` -/
def alternate (s : Setting) : UInt8 := s.interface.getD 3 0

def endpoints (s : Setting) : List UsbEndpointDescriptor := s.others.filterMap endpointOf

/-- Endpoint descriptors and class-specific ones belong to the setting. -/
structure WellFormed (s : Setting) : Prop where
  descriptor : IsDescriptor s.interface
  type : s.interface[1]? = some usbDtInterface
  long : 4 ≤ s.interface.length
  others : ∀ d ∈ s.others, IsDescriptor d ∧ d[1]? ≠ some usbDtConfig ∧
    d[1]? ≠ some usbDtInterface ∧ (d[1]? = some usbDtEndpoint → 7 ≤ d.length)

end Setting

/-- The endpoint descriptors of the settings with alternate number 0. -/
def defaultEndpoints (settings : List Setting) : List UsbEndpointDescriptor :=
  (settings.filter fun s => s.alternate = 0).flatMap Setting.endpoints

structure WellFormedConfig (configData header : List UInt8) (settings : List Setting) : Prop where
  bytes : configData = header ++ settings.flatMap fun s => s.interface ++ s.others.flatten
  descriptor : IsDescriptor header
  type : header[1]? = some usbDtConfig
  each : ∀ s ∈ settings, s.WellFormed
  distinct : ((defaultEndpoints settings).map (·.bEndpointAddress)).Nodup

theorem endpointOf_other {d : List UInt8} {type : UInt8} (second : d[1]? = some type)
    (other : type ≠ usbDtEndpoint) : endpointOf d = none := by
  unfold endpointOf
  split
  · next bDescriptorType _ _ _ _ _ _ =>
    have same : bDescriptorType = type := by simpa using second
    rw [if_neg (same ▸ other)]
  · rfl

theorem flatten_settings (settings : List Setting) :
    (settings.flatMap fun s => s.interface :: s.others).flatten =
      settings.flatMap fun s => s.interface ++ s.others.flatten := by
  induction settings with
  | nil => rfl
  | cons s settings ih => simp [ih]

theorem endpoints_settings {settings : List Setting} (each : ∀ s ∈ settings, s.WellFormed) :
    (settings.flatMap fun s => s.interface :: s.others).filterMap endpointOf =
      settings.flatMap Setting.endpoints := by
  induction settings with
  | nil => rfl
  | cons s settings ih =>
    obtain ⟨first, rest⟩ := List.forall_mem_cons.mp each
    have none : endpointOf s.interface = none := endpointOf_other first.type (by decide)
    simp only [List.flatMap_cons, List.filterMap_append, List.cons_append,
      List.filterMap_cons_none none, ih rest, Setting.endpoints]

/-- The chain is made of the header, the interface descriptors and what follows each. -/
theorem WellFormedConfig.decomposes {configData header : List UInt8} {settings : List Setting}
    (h : WellFormedConfig configData header settings) :
    Decomposes configData (header :: settings.flatMap fun s => s.interface :: s.others) [] where
  bytes := by
    rw [h.bytes, List.append_nil, List.flatten_cons, flatten_settings]
  descriptors d hd := by
    rcases List.mem_cons.mp hd with rfl | hd
    · exact h.descriptor
    · obtain ⟨s, hs, hd⟩ := List.mem_flatMap.mp hd
      have wf := h.each s hs
      rcases List.mem_cons.mp hd with rfl | hd
      · exact wf.descriptor
      · exact (wf.others d hd).1
  tail := .inl (by simp)

/-- The scan sees through the interface descriptors. -/
theorem WellFormedConfig.parse {configData header : List UInt8} {settings : List Setting}
    (h : WellFormedConfig configData header settings) :
    parseEndpointDescriptors configData = settings.flatMap Setting.endpoints := by
  have chain := h.decomposes
  rw [parseEndpointDescriptors, parseEndpoints_eq chain chain.length_le,
    List.filterMap_cons_none (endpointOf_other h.type (by decide)), endpoints_settings h.each]

theorem length_defaultEndpoints_le (settings : List Setting) :
    (defaultEndpoints settings).length ≤ (settings.flatMap Setting.endpoints).length :=
  (List.filter_sublist.flatMap _).length_le

theorem flatMap_endpoints_eq_iff (settings : List Setting) :
    settings.flatMap Setting.endpoints = defaultEndpoints settings ↔
      ∀ s ∈ settings, s.alternate ≠ 0 → s.endpoints = [] := by
  induction settings with
  | nil => simp [defaultEndpoints]
  | cons s settings ih =>
    rw [List.forall_mem_cons, ← ih]
    by_cases zero : s.alternate = 0
    · simp [defaultEndpoints, zero]
    · have fewer := length_defaultEndpoints_le settings
      simp only [defaultEndpoints, List.flatMap_cons, List.filter_cons, zero, decide_false,
        Bool.false_eq_true, if_false, ne_eq, not_false_eq_true, forall_const] at fewer ⊢
      constructor
      · intro same
        have lengths := congrArg List.length same
        rw [List.length_append] at lengths
        have empty : s.endpoints = [] := List.eq_nil_of_length_eq_zero (by omega)
        exact ⟨empty, by simpa [empty] using same⟩
      · rintro ⟨empty, same⟩
        simpa [empty] using same

/-! ## Activation -/

/-- When SET_CONFIGURATION is accepted, the endpoints enabled and served are
those of all settings, in order; they are those of the settings with alternate
number 0 just when no other setting has an endpoint. -/
theorem all_settings_activated {configData header : List UInt8} {settings : List Setting}
    (wf : WellFormedConfig configData header settings) {ctrl : UsbCtrlRequest}
    {resp : RetSubmit} {s : LoopState} {es : Trace} {r : Except IoError LoopState}
    (cached : s.cachedConfigDesc = some configData) (run : Runs (mainLoop s) es r)
    (selects : dispatch ctrl = .setConfiguration) (accepted : Answered ctrl resp es)
    (succeed : IoctlsSucceed es) :
    enables es = settings.flatMap Setting.endpoints ∧
      (spawnedWorkers es).map Worker.desc = settings.flatMap Setting.endpoints ∧
      (enables es = defaultEndpoints settings ↔
        ∀ s ∈ settings, s.alternate ≠ 0 → s.endpoints = []) := by
  obtain ⟨first, request, rest, rfl, hevent, success⟩ := accepted
  obtain ⟨_, _, same, ⟨failed, _⟩ | ⟨event, hevent', handled⟩⟩ := runs_mainLoop run
  · obtain ⟨rfl, rfl⟩ := List.cons.inj same
    cases failed.symm.trans hevent
  · obtain ⟨rfl, rfl⟩ := List.cons.inj same
    obtain rfl : event = .control ctrl := Option.some.inj (hevent'.symm.trans hevent)
    obtain ⟨buf, reply, rfl⟩ := fetch_of_eventOf hevent
    obtain ⟨r', activating⟩ := runs_activate selects cached handled success
    have succeedRest : IoctlsSucceed rest := by
      rw [ioctlsSucceed_cons_ioctl, ioctlsSucceed_cons_submit] at succeed
      exact succeed.2
    obtain ⟨enabled, served⟩ := activates activating succeedRest
    rw [wf.parse] at enabled served
    have enabled : enables (⟨.ioctl (.eventFetch buf), reply⟩ :: ⟨.submit request, .ok resp⟩ ::
      rest) = settings.flatMap Setting.endpoints := enabled
    exact ⟨enabled, served, by rw [enabled, flatMap_endpoints_eq_iff]⟩

/-- An isochronous endpoint with two packet sizes, as two settings of one interface. -/
def audioSettings : List Setting :=
  [⟨[9, 4, 0, 0, 1, 1, 2, 0, 0], [[7, 5, 0x81, 1, 0, 0, 1]]⟩,
    ⟨[9, 4, 0, 1, 1, 1, 2, 0, 0], [[7, 5, 0x81, 1, 192, 0, 1]]⟩]

def audioHeader : List UInt8 := [9, 2, 41, 0, 1, 1, 0, 0x80, 50]

def audioConfig : List UInt8 :=
  audioHeader ++ audioSettings.flatMap fun s => s.interface ++ s.others.flatten

theorem audioConfig_wellFormed : WellFormedConfig audioConfig audioHeader audioSettings where
  bytes := rfl
  descriptor := ⟨by decide, _, _, rfl, rfl⟩
  type := rfl
  each := by
    simp only [audioSettings, List.forall_mem_cons, List.not_mem_nil, false_implies, implies_true,
      and_true]
    have endpoint : ∀ d ∈ [[7, 5, 0x81, 1, 0, 0, 1], [7, 5, 0x81, 1, 192, 0, (1 : UInt8)]],
        IsDescriptor d ∧ d[1]? ≠ some usbDtConfig ∧ d[1]? ≠ some usbDtInterface ∧
          (d[1]? = some usbDtEndpoint → 7 ≤ d.length) := by
      simp [IsDescriptor, usbDtConfig, usbDtInterface]
    exact ⟨⟨⟨by decide, _, _, rfl, rfl⟩, rfl, by decide, fun d hd => endpoint d (by simp_all)⟩,
      ⟨⟨by decide, _, _, rfl, rfl⟩, rfl, by decide, fun d hd => endpoint d (by simp_all)⟩⟩
  distinct := by decide

/-- SET_CONFIGURATION 1, accepted. -/
def selectAudio : Trace := served System.setConfiguration [] ⟨some audioConfig, []⟩

theorem all_settings_activated_audio :
    enables selectAudio = audioSettings.flatMap Setting.endpoints ∧
      (spawnedWorkers selectAudio).map Worker.desc = audioSettings.flatMap Setting.endpoints ∧
      (enables selectAudio = defaultEndpoints audioSettings ↔
        ∀ s ∈ audioSettings, s.alternate ≠ 0 → s.endpoints = []) :=
  all_settings_activated audioConfig_wellFormed (s := ⟨some audioConfig, []⟩) rfl
    (runs_answer _ _) (by decide) (served_answered _ _ (.inr (.inl (by decide))))
    (served_succeeds _ _ _)

/-- The endpoint of both settings is enabled twice and served twice. -/
theorem alternate_setting_activated :
    WellFormedConfig audioConfig audioHeader audioSettings ∧
      (∃ r, Runs (mainLoop ⟨some audioConfig, []⟩) selectAudio r) ∧
      (∃ resp, Answered System.setConfiguration resp selectAudio) ∧ IoctlsSucceed selectAudio ∧
      enables selectAudio ≠ defaultEndpoints audioSettings ∧
      (enables selectAudio).map (·.bEndpointAddress) = [0x81, 0x81] ∧
      (spawnedWorkers selectAudio).map (·.desc.bEndpointAddress) = [0x81, 0x81] :=
  ⟨audioConfig_wellFormed, ⟨_, runs_answer _ _⟩,
    ⟨_, served_answered _ _ (.inr (.inl (by decide)))⟩, served_succeeds _ _ _,
    by decide +kernel, by decide +kernel, by decide +kernel⟩

end UsbipDevirt
