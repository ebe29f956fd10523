import Mathlib.Data.FinEnum
import UsbipDevirt.Control
import UsbipDevirt.System

/-!
# Endpoints and their threads

The event loop enables endpoints and starts a thread for each of them when
SET_CONFIGURATION has been accepted; Reset and Disconnect end the threads but
leave the endpoints enabled. The contract of one iteration speaks of the
endpoints that are enabled and of the threads that are alive, which may end at
any time.
-/

namespace UsbipDevirt

open Program Program.Prog RawGadgetDevice

def endpointAddresses (descs : List UsbEndpointDescriptor) : List UInt8 :=
  descs.map (·.bEndpointAddress)

/-- The threads started in a trace. -/
def spawns (es : Trace) : List ThreadId := es.filterMap fun e =>
  match e with
  | ⟨.spawn _, t⟩ => some t
  | _ => none

@[simp] theorem spawns_append (es fs : Trace) : spawns (es ++ fs) = spawns es ++ spawns fs :=
  List.filterMap_append

/-- The configuration descriptor whose endpoints are enabled next, if this is
the reply that accepts SET_CONFIGURATION. -/
def accepted (vars : LoopState) (trace : Trace) (result : Except IoError RetSubmit) :
    Option (List UInt8) :=
  match eventOf trace, result with
  | some (.control ctrl), .ok resp =>
    if dispatch ctrl = .setConfiguration ∧ resp.status = 0 then vars.cachedConfigDesc else none
  | _, _ => none

/-! ## The contract of an iteration -/

/-- `live` gives the endpoint address that a thread serves until it ends. -/
structure Resources where
  trace : Trace
  enabled : List (UInt8 × EpHandle)
  live : ThreadId → Option UInt8

namespace Resources

def after (g : Resources) (e : Program.Event Reply) : Resources where
  trace := g.trace ++ [e]
  enabled := match e with
    | ⟨.ioctl call, reply⟩ => call.effect reply g.enabled
    | _ => g.enabled
  live := match e with
    | ⟨.spawn worker, t⟩ => Function.update g.live t (some worker.desc.bEndpointAddress)
    | _ => g.live

/-- Nothing is left of an earlier configuration that this one collides with. -/
structure Cleared (g : Resources) (epThreads : List ThreadId) (configData : List UInt8) : Prop where
  ended : ∀ t ∈ epThreads, g.live t = none
  distinct : (endpointAddresses (parseEndpointDescriptors configData)).Nodup
  disabled : ∀ a ∈ endpointAddresses (parseEndpointDescriptors configData),
    a ∉ g.enabled.map Prod.fst

/-- No two live threads serve the same endpoint, and each is in `ep_threads` or
in the list that SET_CONFIGURATION is about to put there. -/
structure Tidy (vars : LoopState) (g : Resources) : Prop where
  one : ∀ t u a, g.live t = some a → g.live u = some a → t = u
  kept : ∀ t a, g.live t = some a → t ∈ vars.epThreads ∨ t ∈ spawns g.trace

end Resources

/-- Other threads may end, every ioctl succeeds, and SET_CONFIGURATION is
accepted only when nothing is left of an earlier one. -/
def endpointUse (vars : LoopState) : Contract Reply Resources where
  others g g' := g'.trace = g.trace ∧ g'.enabled = g.enabled ∧
    ∀ t a, g'.live t = some a → g.live t = some a
  replies g e := match e with
    | ⟨.ioctl _, reply⟩ => reply.Succeeds
    | ⟨.submit _, result⟩ => ∀ configData, accepted vars g.trace result = some configData →
      g.Cleared vars.epThreads configData
    | ⟨.spawn _, t⟩ => g.live t = none
    | ⟨.join t, _⟩ => g.live t = none
  effect := Resources.after
  permits g o := g.Tidy vars ∧ ∀ desc, o = .ioctl (.epEnable desc) →
    desc.bEndpointAddress ∉ g.enabled.map Prod.fst
  others_refl _ := ⟨rfl, rfl, fun _ _ => id⟩
  others_trans h h' := ⟨h'.1.trans h.1, h'.2.1.trans h.2.1, fun t a ha => h.2.2 t a (h'.2.2 t a ha)⟩

/-! ## What the handlers keep -/

/-- Each live thread is among `ts`. -/
structure Within (vars : LoopState) (ts : List ThreadId) (g : Resources) : Prop where
  one : ∀ t u a, g.live t = some a → g.live u = some a → t = u
  live : ∀ t a, g.live t = some a → t ∈ ts
  known : ∀ t ∈ ts, t ∈ vars.epThreads ∨ t ∈ spawns g.trace

/-- Neither enables an endpoint nor starts a thread. -/
def Calm (o : Op) : Prop := NotEnable o ∧ ∀ worker, o ≠ .spawn worker

section Handlers

variable {vars : LoopState} {ts : List ThreadId} {g g' : Resources}

theorem Within.tidy (h : Within vars ts g) : g.Tidy vars :=
  ⟨h.one, fun t a ha => h.known t (h.live t a ha)⟩

theorem Within.others (h : Within vars ts g) (step : (endpointUse vars).others g g') :
    Within vars ts g' where
  one t u a ht hu := h.one t u a (step.2.2 t a ht) (step.2.2 u a hu)
  live t a ht := h.live t a (step.2.2 t a ht)
  known t ht := by
    rw [step.1]
    exact h.known t ht

/-- Only spawning changes which threads there are. -/
theorem Within.after (h : Within vars ts g) {e : Program.Event Reply}
    (calm : ∀ worker, e.op ≠ .spawn worker) : Within vars ts (g.after e) := by
  have live : (g.after e).live = g.live := by
    obtain ⟨o, reply⟩ := e
    cases o with
    | spawn worker => exact absurd rfl (calm worker)
    | _ => rfl
  refine ⟨?_, ?_, fun t ht => (h.known t ht).imp_right fun hs => ?_⟩
  · rw [live]
    exact h.one
  · rw [live]
    exact h.live
  · simp [Resources.after, hs]

theorem meets_of_calm {α : Type} {p : Routine α} (calm : Uses Calm p) (h : Within vars ts g) :
    Meets (endpointUse vars) (fun _ => Within vars ts) p g := by
  refine Meets.of_uses calm h (fun _ _ => Within.others)
    fun g o within ho => ⟨⟨within.tidy, ?_⟩, ?_⟩
  · exact fun desc hdesc => absurd hdesc (ho.1 desc)
  · exact fun reply _ => within.after ho.2

/-- The live threads are among those that are to be remembered, if the handler returns. -/
def Ends {α : Type} (vars : LoopState) (threads : α → List ThreadId) (result : Except IoError α)
    (g : Resources) : Prop :=
  ∃ ts, Within vars ts g ∧ ∀ a, result = .ok a → ts = threads a

theorem Within.ends_error {α : Type} (h : Within vars ts g) (threads : α → List ThreadId)
    (e : IoError) : Ends vars threads (.error e) g := ⟨ts, h, nofun⟩

theorem Within.ends_ok {α : Type} {threads : α → List ThreadId} {a : α}
    (h : Within vars (threads a) g) : Ends vars threads (.ok a) g := by
  refine ⟨threads a, h, ?_⟩
  rintro _ ⟨⟩
  rfl

theorem Ends.others {α : Type} {threads : α → List ThreadId} {result : Except IoError α}
    (h : Ends vars threads result g) (step : (endpointUse vars).others g g') :
    Ends vars threads result g' := by
  obtain ⟨ts, within, returned⟩ := h
  exact ⟨ts, within.others step, returned⟩

theorem meets_done {α : Type} {threads : α → List ThreadId} {result : Except IoError α}
    (h : Ends vars threads result g) :
    Meets (endpointUse vars) (Ends vars threads) (.done result) g := fun _ step => h.others step

/-- A calm part in front changes nothing. -/
theorem meets_calm_bind {α β : Type} {threads : β → List ThreadId} {p : Routine α}
    {f : α → Routine β} (calm : Uses Calm p) (h : Within vars ts g)
    (next : ∀ a g, Within vars ts g → Meets (endpointUse vars) (Ends vars threads) (f a) g) :
    Meets (endpointUse vars) (Ends vars threads) (p >>= f) g := by
  refine ((meets_of_calm calm h).mono ?_).bind
  rintro (e | a) g within
  · exact within.ends_error threads e
  · exact next a g within

theorem Within.without {t : ThreadId} (h : Within vars (t :: ts) g) (ended : g.live t = none) :
    Within vars ts g := by
  refine ⟨h.one, fun u a hu => ?_, fun u hu => h.known u (List.mem_cons_of_mem t hu)⟩
  rcases List.mem_cons.mp (h.live u a hu) with rfl | hmem
  · simp [ended] at hu
  · exact hmem

theorem meets_joinAll (h : Within vars ts g) :
    Meets (endpointUse vars) (fun _ => Within vars []) (joinAll ts) g := by
  induction ts generalizing g with
  | nil => exact fun _ step => h.others step
  | cons t ts ih =>
    intro g' step
    have within := h.others step
    refine ⟨⟨within.tidy, nofun⟩, fun reply ended => ?_⟩
    exact ih ((within.without ended).after nofun)

theorem meets_enableEndpoints {descs : List UsbEndpointDescriptor} (h : Within vars ts g)
    (distinct : (endpointAddresses descs).Nodup)
    (disabled : ∀ a ∈ endpointAddresses descs, a ∉ g.enabled.map Prod.fst) :
    Meets (endpointUse vars) (fun _ => Within vars ts) (enableEndpoints descs) g := by
  induction descs generalizing g with
  | nil => exact fun _ step => h.others step
  | cons desc descs ih =>
    obtain ⟨apart, distinct⟩ := List.nodup_cons.mp distinct
    intro g' step
    have within := h.others step
    refine ⟨⟨within.tidy, ?_⟩, fun reply succeeds => ?_⟩
    · rintro _ ⟨⟩
      rw [step.2.1]
      exact disabled _ List.mem_cons_self
    · have success : ¬ reply.ret < 0 := succeeds
      simp only [if_neg success]
      have enabled : (g'.after ⟨.ioctl (.epEnable desc), reply⟩).enabled =
          (desc.bEndpointAddress, ⟨reply.ret.toUInt32⟩) :: g.enabled := by
        simp [Resources.after, Ioctl.effect, IoctlReply.Succeeds, success, step.2.1]
      have rest := ih (within.after (e := ⟨.ioctl (.epEnable desc), reply⟩) nofun) distinct (by
        intro a ha
        rw [enabled, List.map_cons, List.mem_cons, not_or]
        refine ⟨?_, disabled a (List.mem_cons_of_mem _ ha)⟩
        rintro rfl
        exact apart ha)
      refine Meets.bind (p := enableEndpoints descs) (rest.mono ?_)
      rintro (e | handles) g within
      · exact within
      · exact fun _ step => within.others step

theorem Within.spawn {t : ThreadId} {worker : Worker} (h : Within vars ts g)
    (fresh : g.live t = none)
    (apart : ∀ u a, g.live u = some a → a ≠ worker.desc.bEndpointAddress) :
    Within vars (ts ++ [t]) (g.after ⟨.spawn worker, t⟩) := by
  have live : ∀ u a, (g.after ⟨.spawn worker, t⟩).live u = some a →
      (u = t ∧ a = worker.desc.bEndpointAddress) ∨ (u ≠ t ∧ g.live u = some a) := by
    intro u a hu
    by_cases hut : u = t
    · subst hut
      exact .inl ⟨rfl, by simpa [Resources.after] using hu.symm⟩
    · exact .inr ⟨hut, by simpa [Resources.after, hut] using hu⟩
  refine ⟨fun u v a hu hv => ?_, fun u a hu => ?_, fun u hu => ?_⟩
  · rcases live u a hu with ⟨hut, hua⟩ | ⟨_, hu⟩ <;> rcases live v a hv with ⟨hvt, hva⟩ | ⟨_, hv⟩
    · exact hut.trans hvt.symm
    · exact absurd hua (apart v a hv)
    · exact absurd hva (apart u a hu)
    · exact h.one u v a hu hv
  · rcases live u a hu with ⟨rfl, _⟩ | ⟨_, hu⟩
    · simp
    · exact List.mem_append_left _ (h.live u a hu)
  · simp only [Resources.after, spawns_append, List.mem_append]
    rcases List.mem_append.mp hu with hu | hu
    · exact (h.known u hu).imp_right .inl
    · exact .inr (.inr (by simpa [spawns] using hu))

theorem meets_spawnEpThreads {workers : List Worker} (h : Within vars ts g)
    (distinct : (endpointAddresses (workers.map (·.desc))).Nodup)
    (fresh : ∀ t a, g.live t = some a → a ∉ endpointAddresses (workers.map (·.desc))) :
    Meets (endpointUse vars) (Ends vars (ts ++ ·)) (spawnEpThreads workers) g := by
  induction workers generalizing ts g with
  | nil => exact meets_done (Within.ends_ok (by simpa using h))
  | cons worker workers ih =>
    obtain ⟨apart, distinct⟩ := List.nodup_cons.mp distinct
    intro g' step
    have within := h.others step
    have fresh' : ∀ t a, g'.live t = some a → a ≠ worker.desc.bEndpointAddress ∧
        a ∉ endpointAddresses (workers.map (·.desc)) := by
      intro t a ht
      simpa [endpointAddresses] using fresh t a (step.2.2 t a ht)
    refine ⟨⟨within.tidy, nofun⟩, fun t unused => ?_⟩
    have started := within.spawn unused fun u a hu => (fresh' u a hu).1
    have rest := ih started distinct (by
      intro u a hu
      by_cases hut : u = t
      · have ha : a = worker.desc.bEndpointAddress := by
          simpa [Resources.after, hut] using hu.symm
        exact ha ▸ apart
      · exact (fresh' u a (by simpa [Resources.after, hut] using hu)).2)
    refine Meets.bind (p := spawnEpThreads workers) (rest.mono ?_)
    rintro (e | threads) g ⟨us, within, returned⟩
    · exact within.ends_error _ e
    · obtain rfl := returned threads rfl
      exact meets_done (Within.ends_ok (by simpa using within))

/-- One worker for each handle, each with its own endpoint. -/
theorem workers_sublist (descs : List UsbEndpointDescriptor) (handles : List EpHandle) :
    (endpointAddresses ((descs.zipWith Worker.mk handles).map (·.desc))).Sublist
      (endpointAddresses descs) := by
  induction descs generalizing handles with
  | nil => simp [endpointAddresses]
  | cons desc descs ih =>
    cases handles with
    | nil => simp [endpointAddresses]
    | cons handle handles => exact (ih handles).cons_cons _

theorem calm_ioctl {call : Ioctl} (h : ∀ desc, call ≠ .epEnable desc) : Calm (.ioctl call) :=
  ⟨fun desc hop => h desc (Op.ioctl.inj hop), nofun⟩

theorem meets_handleSetConfiguration {ctrl : UsbCtrlRequest} (h : Within vars vars.epThreads g)
    (event : eventOf g.trace = some (.control ctrl))
    (setConfiguration : dispatch ctrl = .setConfiguration) :
    Meets (endpointUse vars) (Ends vars id) (handleSetConfiguration ctrl vars) g := by
  intro g' step
  have within := h.others step
  refine ⟨⟨within.tidy, nofun⟩, fun reply cleared => ?_⟩
  have answered := within.after (e := ⟨.submit (controlRequest ctrl .out [] 0), reply⟩) nofun
  cases reply with
  | error e => exact meets_done (answered.ends_error _ e)
  | ok resp =>
    show Meets _ _ (if resp.status ≠ 0 then _ else _) _
    by_cases refused : resp.status ≠ 0
    · rw [if_pos refused]
      exact meets_calm_bind (uses_ep0Stall (calm_ioctl nofun)) answered fun _ _ within =>
        meets_done (Within.ends_ok (a := vars.epThreads) within)
    · rw [if_neg refused]
      cases cached : vars.cachedConfigDesc with
      | none => exact meets_done (answered.ends_error _ _)
      | some configData =>
        have clear : g'.Cleared vars.epThreads configData := cleared configData (by
          rw [step.1]
          simp [accepted, event, setConfiguration, not_not.mp refused, cached])
        have alone : Within vars [] g' :=
          ⟨within.one, fun t a ht => by simp [clear.ended t (within.live t a ht)] at ht, nofun⟩
        have enabling := meets_enableEndpoints
          (alone.after (e := ⟨.submit (controlRequest ctrl .out [] 0), .ok resp⟩) nofun)
          clear.distinct clear.disabled
        refine Meets.bind (p := enableEndpoints _) (enabling.mono ?_)
        rintro (e | handles) g alone
        · exact alone.ends_error _ e
        refine meets_calm_bind (uses_drawPower (fun _ => calm_ioctl nofun) _) alone
          fun _ _ alone => ?_
        refine meets_calm_bind (uses_configure (calm_ioctl nofun)) alone fun _ _ alone => ?_
        refine meets_calm_bind (uses_ep0Read (fun _ => calm_ioctl nofun) _) alone
          fun _ _ alone => ?_
        refine (meets_spawnEpThreads alone (clear.distinct.sublist (workers_sublist _ _)) ?_)
        exact fun t a ht => absurd (alone.live t a ht) (List.not_mem_nil)

/-- Other requests leave `ep_threads` as it is. -/
theorem handleControl_returns {ctrl : UsbCtrlRequest} (other : dispatch ctrl ≠ .setConfiguration)
    (s : LoopState) : Returns (fun s' => s'.epThreads = s.epThreads) (handleControl ctrl s) := by
  cases h : dispatch ctrl with
  | setAddress =>
    rw [handleControl_of_setAddress h]
    exact Returns.bind fun _ => rfl
  | setConfiguration => exact absurd h other
  | controlIn =>
    rw [handleControl_of_controlIn h]
    exact Returns.bind fun _ => rfl
  | controlOutWithData =>
    rw [handleControl_of_outWithData h]
    exact Returns.bind fun _ => rfl
  | controlOutNoData =>
    rw [handleControl_of_outNoData h]
    exact Returns.bind fun _ => rfl

theorem meets_handleEvent {event : Event} (h : Within vars vars.epThreads g)
    (current : eventOf g.trace = some event) :
    Meets (endpointUse vars) (Ends vars LoopState.epThreads) (handleEvent event vars) g := by
  have joined : Meets (endpointUse vars) (Ends vars LoopState.epThreads) (do
      joinAll vars.epThreads
      return ⟨none, []⟩) g := by
    refine Meets.bind ((meets_joinAll h).mono ?_)
    rintro (e | _) g within
    · exact within.ends_error _ e
    · exact meets_done (Within.ends_ok within)
  cases event with
  | connect | suspend | resume | unknown => exact meets_done (Within.ends_ok h)
  | reset | disconnect => exact joined
  | control ctrl =>
    show Meets _ _ (handleControl ctrl vars) g
    by_cases setConfiguration : dispatch ctrl = .setConfiguration
    · rw [handleControl_of_setConfiguration setConfiguration]
      refine Meets.bind ((meets_handleSetConfiguration h current setConfiguration).mono ?_)
      rintro (e | threads) g ⟨ts, within, returned⟩
      · exact within.ends_error _ e
      · obtain rfl := returned threads rfl
        exact meets_done (Within.ends_ok within)
    · have calm : Uses Calm (handleControl ctrl vars) := uses_handleControl
        (fun _ => ⟨nofun, nofun⟩) (fun _ => calm_ioctl) setConfiguration vars
      refine ((meets_of_calm calm h).returns (handleControl_returns setConfiguration vars)).mono ?_
      rintro result g ⟨within, same⟩
      exact ⟨_, within, fun a ha => (same a ha).symm⟩

theorem meets_mainLoop (h : Within vars vars.epThreads g) (start : g.trace = []) :
    Meets (endpointUse vars) (Ends vars LoopState.epThreads) (mainLoop vars) g := by
  intro g' step
  have within := h.others step
  refine ⟨⟨within.tidy, nofun⟩, fun reply succeeds => ?_⟩
  have success : ¬ reply.ret < 0 := succeeds
  simp only [if_neg success]
  refine meets_handleEvent (within.after nofun) ?_
  show eventOf (g'.trace ++ [_]) = _
  rw [step.1, start]
  exact if_pos success

end Handlers

/-! ## Runs -/

namespace System

/-- The endpoints a data thread changes: none. -/
def OnData (o : Op) : Prop :=
  ∀ call, o = .ioctl call → ∀ reply enabled, call.effect reply enabled = enabled

/-- What the contract of the main thread speaks of. -/
def resources (s : System) : Resources where
  trace := s.main.trace
  enabled := s.enabled
  live t := (s.threads t).map fun thread => thread.worker.desc.bEndpointAddress

/-- The descriptor whose endpoints the main thread enables after this step: the
cached one, once SET_CONFIGURATION has been accepted. -/
def configures (s : System) : Action → Option (List UInt8)
  | .main .resume =>
    match s.main.call with
    | some c =>
      match (s.bridge.calls c).pc with
      | .returned result => accepted s.main.vars s.main.trace result
      | _ => none
    | none => none
  | _ => none

/-- Every ioctl of the main thread succeeds, and the endpoints of a
configuration descriptor have different addresses. -/
structure OrdinaryHost (s : System) (a : Action) : Prop where
  ioctls : ∀ reply, a = .main (.ioctl reply) → reply.Succeeds
  distinct : ∀ configData, s.configures a = some configData →
    (endpointAddresses (parseEndpointDescriptors configData)).Nodup

/-- SET_CONFIGURATION is accepted only when the threads of an earlier one have
ended, and its endpoints are not enabled yet. -/
def ConfiguredAfresh (s : System) (a : Action) : Prop :=
  ∀ configData, s.configures a = some configData →
    (∀ t ∈ s.main.vars.epThreads, s.threads t = none) ∧
      ∀ a ∈ endpointAddresses (parseEndpointDescriptors configData), a ∉ s.enabled.map Prod.fst

structure Lifecycle (s : System) : Prop where
  /-- No endpoint is enabled a second time unless it was disabled. -/
  fresh : ∀ desc k, s.main.rest = .op (.ioctl (.epEnable desc)) k →
    desc.bEndpointAddress ∉ s.enabled.map Prod.fst
  /-- No two threads serve the same endpoint. -/
  one : ∀ t u x y, s.threads t = some x → s.threads u = some y →
    x.worker.desc.bEndpointAddress = y.worker.desc.bEndpointAddress → t = u
  /-- The event loop knows every thread, by `ep_threads` or while it is putting that together. -/
  kept : ∀ t, s.threads t ≠ none → t ∈ s.main.vars.epThreads ∨ t ∈ spawns s.main.trace

structure LifecycleInv (s : System) : Prop where
  main : Meets (endpointUse s.main.vars) (Ends s.main.vars LoopState.epThreads)
    s.main.rest s.resources
  threads : ∀ t thread, s.threads t = some thread → Uses OnData thread.activity.rest
  unused : ∀ t, s.spawned ≤ t → s.threads t = none

theorem LifecycleInv.lifecycle {s : System} (h : s.LifecycleInv) : s.Lifecycle := by
  have tidy : s.resources.Tidy s.main.vars ∧
      ∀ desc k, s.main.rest = .op (.ioctl (.epEnable desc)) k →
        desc.bEndpointAddress ∉ s.enabled.map Prod.fst := by
    have now := h.main
    cases rest : s.main.rest with
    | done result =>
      rw [rest] at now
      obtain ⟨ts, within, _⟩ := now s.resources ((endpointUse _).others_refl _)
      exact ⟨within.tidy, nofun⟩
    | op o k =>
      rw [rest] at now
      obtain ⟨⟨tidy, enable⟩, _⟩ := now s.resources ((endpointUse _).others_refl _)
      refine ⟨tidy, fun desc k' same => enable desc ?_⟩
      simp only [Prog.op.injEq] at same
      exact same.1
  obtain ⟨⟨one, kept⟩, fresh⟩ := tidy
  refine ⟨fresh, fun t u x y ht hu same => ?_, fun t ht => ?_⟩
  · exact one t u x.worker.desc.bEndpointAddress (by simp [resources, ht])
      (by simp [resources, hu, same])
  · obtain ⟨thread, ht⟩ := Option.ne_none_iff_exists'.mp ht
    exact kept t thread.worker.desc.bEndpointAddress (by simp [resources, ht])

theorem uses_onData (w : Worker) (buf : List UInt8) : Uses OnData (w.iteration buf) := by
  refine uses_iteration (fun _ => nofun) (fun _ _ => ?_) (fun _ => ?_) w buf <;>
  · rintro _ ⟨⟩ reply enabled
    simp [Ioctl.effect]

/-- A step of a data thread is one of the others as far as the main thread is concerned. -/
theorem LifecycleInv.workerMove {s s' : System} {t : ThreadId} {thread : DataThread}
    (h : s.LifecycleInv) (live : s.threads t = some thread) (step : WorkerMove s t thread s') :
    s'.LifecycleInv := by
  have data := h.threads t thread live
  have unused : ∀ x : Option DataThread, ∀ u, s.spawned ≤ u →
      Function.update s.threads t x u = none := by
    intro x u hu
    have apart : u ≠ t := by
      rintro rfl
      simp [h.unused u hu] at live
    rw [Function.update_of_ne apart]
    exact h.unused u hu
  have keep : ∀ activity, Uses OnData activity.rest → ∀ bridge called,
      LifecycleInv { s.setThread t (some { thread with activity }) with bridge, called } := by
    intro activity uses bridge called
    refine ⟨h.main.others ⟨rfl, rfl, fun u a hu => ?_⟩, fun u x hu => ?_, unused _⟩
    · by_cases hut : u = t
      · subst hut
        simpa [resources, setThread, live] using hu
      · simpa [resources, setThread, hut] using hu
    · by_cases hut : u = t
      · subst hut
        simp only [setThread, Function.update_self, Option.some.injEq] at hu
        exact hu ▸ uses
      · exact h.threads u x (by simpa [setThread, hut] using hu)
  have stop : LifecycleInv (s.setThread t none) := by
    refine ⟨h.main.others ⟨rfl, rfl, fun u a hu => ?_⟩, fun u x hu => ?_, unused _⟩
    · by_cases hut : u = t
      · simp [resources, setThread, hut] at hu
      · simpa [resources, setThread, hut] using hu
    · by_cases hut : u = t
      · simp [setThread, hut] at hu
      · exact h.threads u x (by simpa [setThread, hut] using hu)
  cases step with
  | @ioctl call k reply rest =>
    rw [rest] at data
    rw [data.1 call rfl reply s.enabled]
    exact keep _ (data.2 reply) s.bridge s.called
  | submit rest call start =>
    exact keep { thread.activity with call := some s.called } data _ (s.called + 1)
  | @resume request k c result rest call pc =>
    rw [rest] at data
    exact keep _ (data.2 result) s.bridge s.called
  | next rest => exact keep _ (uses_onData thread.worker _) s.bridge s.called
  | exit rest => exact stop
  | unwind call pc => exact stop

/-- A spawned thread is fresh, and its endpoint is the one it was spawned for. -/
theorem LifecycleInv.spawned {s : System} {worker : Worker} {k : ThreadId → Routine LoopState}
    (h : s.LifecycleInv) (rest : s.main.rest = .op (.spawn worker) k) :
    LifecycleInv { s with
      main := s.main.answered ⟨.spawn worker, s.spawned⟩ (k s.spawned),
      spawned := s.spawned + 1,
      threads := Function.update s.threads s.spawned (some (.enter worker worker.initial)) } := by
  have now := h.main
  rw [rest] at now
  refine ⟨?_, fun t thread ht => ?_, fun t ht => ?_⟩
  · have free : s.resources.live s.spawned = none := by
      show (s.threads s.spawned).map _ = none
      rw [h.unused s.spawned (Nat.le_refl _), Option.map_none]
    have next := (now _ ((endpointUse s.main.vars).others_refl s.resources)).2 s.spawned free
    have live : (s.resources.after ⟨.spawn worker, s.spawned⟩).live = fun t =>
        (Function.update s.threads s.spawned (some (.enter worker worker.initial)) t).map
          fun thread => thread.worker.desc.bEndpointAddress := by
      funext t
      by_cases ht : t = s.spawned
      · subst ht
        simp [Resources.after, DataThread.enter]
      · simp [Resources.after, resources, ht]
    refine next.others ⟨rfl, rfl, fun t a ht => ?_⟩
    show (s.resources.after ⟨.spawn worker, s.spawned⟩).live t = some a
    rw [live]
    exact ht
  · dsimp only at ht
    by_cases hnew : t = s.spawned
    · subst hnew
      rw [Function.update_self] at ht
      exact Option.some.inj ht ▸ uses_onData worker _
    · rw [Function.update_of_ne hnew] at ht
      exact h.threads t thread ht
  · dsimp only at ht ⊢
    have hnew : t ≠ s.spawned := Nat.ne_of_gt ht
    rw [Function.update_of_ne hnew]
    exact h.unused t (Nat.le_of_succ_le ht)

theorem LifecycleInv.step {s s' : System} {a : Action} (h : s.LifecycleInv)
    (host : s.OrdinaryHost a) (afresh : s.ConfiguredAfresh a) (step : s.step a = some s') :
    s'.LifecycleInv := by
  cases step_cases step with
  | thread live step => exact h.workerMove live step
  | bridge step => exact { h with }
  | main step =>
    have now := h.main
    have here := (endpointUse s.main.vars).others_refl s.resources
    cases step with
    | @ioctl call k reply rest =>
      rw [rest] at now
      exact ⟨(now _ here).2 reply (host.ioctls reply rfl), h.threads, h.unused⟩
    | submit => exact { h with }
    | @resume request k c result rest call pc =>
      rw [rest] at now
      refine ⟨(now _ here).2 result fun configData hconfig => ?_, h.threads, h.unused⟩
      have configured : s.configures (.main .resume) = some configData := by
        simp only [configures, call, pc]
        exact hconfig
      obtain ⟨ended, disabled⟩ := afresh configData configured
      exact ⟨fun t ht => by simp [resources, ended t ht], host.distinct configData configured,
        disabled⟩
    | spawn rest => exact h.spawned rest
    | @join t k rest ended =>
      rw [rest] at now
      exact ⟨(now _ here).2 () (Option.map_eq_none_iff.mpr ended), h.threads, h.unused⟩
    | @next vars rest =>
      rw [rest] at now
      obtain ⟨ts, within, returned⟩ := now _ here
      obtain rfl := returned vars rfl
      refine ⟨meets_mainLoop ⟨within.one, within.live, fun t ht => .inl ht⟩ rfl,
        h.threads, h.unused⟩

open Transition

/-- Each SET_CONFIGURATION being accepted afresh, the endpoints and threads stay in order. -/
theorem endpoint_lifecycle {build : Build} {input : Input} {output : Output}
    {busnum devnum : UInt32} {s : System}
    (run : Reaches System.step (fun s a => s.OrdinaryHost a ∧ s.ConfiguredAfresh a)
      (imported build input output busnum devnum) s) : s.Lifecycle := by
  have start : (imported build input output busnum devnum).LifecycleInv :=
    ⟨meets_mainLoop ⟨nofun, nofun, nofun⟩ rfl, nofun, fun _ _ => rfl⟩
  have inv : s.LifecycleInv :=
    run.invariant LifecycleInv start fun _ _ _ h guard step => h.step guard.1 guard.2 step
  exact inv.lifecycle

def isOrdinary (s : System) (a : Action) : Bool :=
  (match a with
    | .main (.ioctl reply) => decide reply.Succeeds
    | _ => true) &&
  (s.configures a).all fun configData =>
    decide (endpointAddresses (parseEndpointDescriptors configData)).Nodup

theorem ordinary_of (s : System) (a : Action) (h : isOrdinary s a = true) : s.OrdinaryHost a := by
  obtain ⟨ioctls, distinct⟩ := (Bool.and_eq_true _ _).mp h
  refine ⟨?_, fun configData hconfig => ?_⟩
  · rintro reply rfl
    exact of_decide_eq_true ioctls
  · rw [hconfig] at distinct
    exact of_decide_eq_true distinct

def isAfresh (s : System) (a : Action) : Bool :=
  (s.configures a).all fun configData =>
    (s.main.vars.epThreads.all fun t => (s.threads t).isNone) &&
    decide (∀ a ∈ endpointAddresses (parseEndpointDescriptors configData),
      a ∉ s.enabled.map Prod.fst)

theorem afresh_of (s : System) (a : Action) (h : isAfresh s a = true) : s.ConfiguredAfresh a := by
  intro configData hconfig
  rw [isAfresh, hconfig] at h
  obtain ⟨ended, disabled⟩ := (Bool.and_eq_true _ _).mp h
  refine ⟨fun t ht => ?_, of_decide_eq_true disabled⟩
  exact Option.isNone_iff_eq_none.mp (List.all_eq_true.mp ended t ht)

/-- The first configuration of a device. -/
theorem endpoint_lifecycle_first : ∃ s : System, s.enabled.length = 1 ∧ s.Lifecycle := by
  have allowed : ∀ s a, (isOrdinary s a && isAfresh s a) = true →
      s.OrdinaryHost a ∧ s.ConfiguredAfresh a :=
    fun s a h => ((Bool.and_eq_true _ _).mp h).imp (ordinary_of s a) (afresh_of s a)
  obtain ⟨s, run, found⟩ := Reaches.of_exec_any System.step allowed device
    (readConfig 0 1 configDescriptor ++ configured 1 2)
    (fun s => decide (s.enabled.length = 1)) (by decide +kernel)
  exact ⟨s, of_decide_eq_true found, endpoint_lifecycle run⟩

/-- The main thread is about to enable an endpoint that is enabled. -/
def enablesAgain (s : System) : Bool :=
  match s.main.rest with
  | .op (.ioctl (.epEnable desc)) _ => decide (desc.bEndpointAddress ∈ s.enabled.map Prod.fst)
  | _ => false

/-- The data thread ends, because its URB has failed, while Reset waits for it. -/
def resetAfterFailure : List Action :=
  [.thread 0 .submit] ++ runCall 2 ++ [.main (.ioctl fetchedReset)] ++
    [.bridge (.deliver (Message.submit { Bridge.firstHeader with
      seqnum := 3, status := -108, actualLength := 0 } []).encode)] ++
    List.replicate 8 (.bridge .reader) ++
    [.bridge (.call 2 []), .thread 0 .resume, .thread 0 .next] ++
    [.main .join, .main .next]

def acceptAgain (c : CallId) (k : UInt32) : List Action :=
  [.main (.ioctl (fetchedControl setConfiguration))] ++ exchange c k []

/-- Two threads serve endpoint 0x81, and the event loop has forgotten one of them. -/
def forgetsThread (s : System) : Bool :=
  ((s.threads 0).any fun x => x.worker.desc.bEndpointAddress = 0x81) &&
  ((s.threads 1).any fun x => x.worker.desc.bEndpointAddress = 0x81) &&
  decide (0 ∉ s.main.vars.epThreads ∧ 0 ∉ spawns s.main.trace)

theorem not_lifecycle_of_enablesAgain {s : System} (h : enablesAgain s = true) : ¬ s.Lifecycle := by
  unfold enablesAgain at h
  split at h
  · next desc k rest => exact fun lifecycle => lifecycle.fresh desc k rest (of_decide_eq_true h)
  · cases h

/-- SET_CONFIGURATION twice in a row, and once again after a Reset, enables an
endpoint that is enabled; in the first case its thread is started twice, too,
and the first one is forgotten. -/
theorem reconfigured_in_use :
    (∃ s, Reaches System.step OrdinaryHost device s ∧ enablesAgain s = true ∧ ¬ s.Lifecycle) ∧
    (∃ s, Reaches System.step OrdinaryHost device s ∧ forgetsThread s = true ∧ ¬ s.Lifecycle) ∧
    ∃ s, Reaches System.step OrdinaryHost device s ∧ s.main.vars.epThreads = [] ∧
      enablesAgain s = true ∧ ¬ s.Lifecycle := by
  refine ⟨?_, ?_, ?_⟩
  · obtain ⟨s, run, found⟩ := Reaches.of_exec_any System.step ordinary_of device
      (readConfig 0 1 configDescriptor ++ configured 1 2 ++ acceptAgain 2 3)
      enablesAgain (by decide +kernel)
    exact ⟨s, run, found, not_lifecycle_of_enablesAgain found⟩
  · obtain ⟨s, run, found⟩ := Reaches.of_exec_any System.step ordinary_of device
      (readConfig 0 1 configDescriptor ++ configured 1 2 ++ configured 2 3)
      forgetsThread (by decide +kernel)
    refine ⟨s, run, found, fun lifecycle => ?_⟩
    simp only [forgetsThread, Bool.and_eq_true, decide_eq_true_iff, Option.any_eq_true] at found
    obtain ⟨⟨⟨x, live, _⟩, _⟩, forgotten⟩ := found
    exact (lifecycle.kept 0 (by simp [live])).elim forgotten.1 forgotten.2
  · obtain ⟨s, run, found⟩ := Reaches.of_exec_any System.step ordinary_of device
      (readConfig 0 1 configDescriptor ++ configured 1 2 ++ resetAfterFailure ++
        readConfig 3 4 configDescriptor ++ acceptAgain 4 5)
      (fun s => enablesAgain s && decide (s.main.vars.epThreads = [])) (by decide +kernel)
    obtain ⟨again, empty⟩ := (Bool.and_eq_true _ _).mp found
    exact ⟨s, run, of_decide_eq_true empty, again, not_lifecycle_of_enablesAgain again⟩

end System

end UsbipDevirt
