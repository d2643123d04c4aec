import CallbackBridge.CommandLine.Run
import CallbackBridge.Proofs.Commutation
import CallbackBridge.Proofs.Helper.Launching

/-! # The settings of a helper across the boundary

    The settings of a helper are copied twice, field by field: into foreign
    strings, and back from them.  Nothing is lost on the way, and it is said
    exactly what cannot go it.

    Key ideas:

    1. A text goes out where it holds no NUL, and a foreign string comes in
       where it is UTF-8.  A foreign string holds no NUL to begin with, so a
       launch of settings that came in can only want for a program.
    2. An entry point that launches a helper either only logs, or starts a
       child first and only logs after that (`startHelper_refused`,
       `startHelper_launches`).  The log and the operating system leave the
       state alone, so what the call counts can be read off its end. -/

namespace CallbackBridge

/-! ### Single strings -/

namespace CString

/-- The bytes of a string are the encoding of a text. -/
def IsText (s : CString) : Prop :=
  ∃ text : String, text.toUTF8 = s.bytes

theorem text?_eq_some_iff {s : CString} {text : String} :
    s.text? = some text ↔ text.toUTF8 = s.bytes := by
  constructor
  · exact Text.Utf8.toUTF8_of_decode?
  · intro h
    rw [CString.text?, ← h, Text.Utf8.decode?_toUTF8]

theorem text?_eq_none_iff {s : CString} : s.text? = none ↔ ¬ s.IsText := by
  simp only [Option.eq_none_iff_forall_ne_some, ne_eq, text?_eq_some_iff, IsText, not_exists]

/-- A string that is a text is one without NUL. -/
theorem nul_not_mem_text {s : CString} {text : String} (h : s.text? = some text) :
    '\x00' ∉ text.toList := by
  rw [← Text.Utf8.zero_mem_toUTF8_iff, text?_eq_some_iff.mp h]
  exact s.noNul

@[simp] theorem text?_empty : CString.empty.text? = some "" :=
  text?_eq_some_iff.mpr rfl

/-- Exactly the texts without NUL have a foreign form. -/
theorem ofTextOrError_cases (text : String) :
    '\x00' ∉ text.toList ∧ (∃ s, ofTextOrError text = .ok s ∧ s.text? = some text) ∨
      '\x00' ∈ text.toList ∧ ∃ e, ofTextOrError text = .error e := by
  by_cases h : '\x00' ∈ text.toList
  · have none : ofText? text = none :=
      ofText?_eq_none_iff.mpr (Text.Utf8.zero_mem_toUTF8_iff.mpr h)
    exact .inr ⟨h, _, by rw [ofTextOrError, none]⟩
  · obtain ⟨s, hs, -⟩ := exists_ofText? h
    exact .inl ⟨h, s, by rw [ofTextOrError, hs], text?_of_ofText? hs⟩

/-- What goes on after a text has gone out. -/
theorem noNul_of_bind {α : Type} {text : String} {next : CString → Except NulError α} {a : α}
    (h : (ofTextOrError text >>= next) = .ok a) : '\x00' ∉ text.toList ∧ ∃ s, next s = .ok a := by
  obtain ⟨noNul, s, hs, -⟩ | ⟨-, e, he⟩ := ofTextOrError_cases text
  · rw [hs] at h
    exact ⟨noNul, s, h⟩
  · rw [he] at h
    cases h

end CString

/-! ### Going out -/

namespace HelperConfig

variable {c : HelperConfig}

theorem exists_toRaw (h : ∀ field ∈ HelperField.checked, ¬ c.HoldsNul field) :
    ∃ raw, c.toRaw = .ok raw ∧ raw.texts? = some c := by
  have out : ∀ field ∈ HelperField.checked,
      ∃ s, CString.ofTextOrError (c.text field) = .ok s ∧ s.text? = some (c.text field) := by
    intro field hf
    obtain ⟨-, hs⟩ | ⟨holds, -⟩ := CString.ofTextOrError_cases (c.text field)
    · exact hs
    · exact absurd holds (h field hf)
  obtain ⟨path, hpath, tpath⟩ := out .binaryPath (by decide)
  obtain ⟨address, haddress, taddress⟩ := out .address (by decide)
  obtain ⟨netmask, hnetmask, tnetmask⟩ := out .netmask (by decide)
  obtain ⟨socks, hsocks, tsocks⟩ := out .socksServer (by decide)
  obtain ⟨udp, hudp, tudp⟩ := out .udpGateway (by decide)
  obtain ⟨dns, hdns, tdns⟩ := out .dnsGateway (by decide)
  simp only [text] at hpath haddress hnetmask hsocks hudp hdns
  refine ⟨⟨some path, c.tunnelFd, some address, some netmask, some socks, some udp, some dns⟩,
    ?_, ?_⟩
  · rw [toRaw, hpath, haddress, hnetmask, hsocks, hudp, hdns]
    rfl
  · simp only [RawHelperConfig.texts?, RawHelperConfig.required, RawHelperConfig.optional,
      Option.bind_some, tpath, taddress, tnetmask, tsocks, tudp, tdns]
    rfl

theorem noNul_of_toRaw {raw : RawHelperConfig} (h : c.toRaw = .ok raw) :
    ∀ field ∈ HelperField.checked, ¬ c.HoldsNul field := by
  obtain ⟨path, _, h⟩ := CString.noNul_of_bind h
  obtain ⟨address, _, h⟩ := CString.noNul_of_bind h
  obtain ⟨netmask, _, h⟩ := CString.noNul_of_bind h
  obtain ⟨socks, _, h⟩ := CString.noNul_of_bind h
  obtain ⟨udp, _, h⟩ := CString.noNul_of_bind h
  obtain ⟨dns, _, -⟩ := CString.noNul_of_bind h
  simp only [HelperField.checked, List.forall_mem_cons]
  exact ⟨path, address, netmask, socks, udp, dns, nofun⟩

/-- Settings do not go out exactly where a text holds a NUL. -/
theorem toRaw_error_iff :
    (∃ e, c.toRaw = .error e) ↔ ∃ field ∈ HelperField.checked, c.HoldsNul field := by
  cases h : c.toRaw with
  | ok raw =>
    refine iff_of_false nofun fun ⟨field, hf, holds⟩ => ?_
    exact noNul_of_toRaw h field hf holds
  | error e =>
    refine iff_of_true ⟨e, rfl⟩ (not_not.mp fun hn => ?_)
    obtain ⟨raw, hraw, -⟩ := exists_toRaw fun field hf holds => hn ⟨field, hf, holds⟩
    cases hraw.symm.trans h

end HelperConfig

/-! ### Coming in -/

/-- A pointer leads to a string that is no text. -/
def CString.Garbled (value : Option CString) : Prop :=
  ∃ s, value = some s ∧ ¬ s.IsText

namespace RawHelperConfig

variable {raw : RawHelperConfig} {c : HelperConfig}

theorem required_eq_none_iff {value : Option CString} :
    required value = none ↔ value = none ∨ CString.Garbled value := by
  cases value with
  | none => simp [required]
  | some s => simp [required, CString.Garbled, CString.text?_eq_none_iff]

theorem optional_eq_none_iff {value : Option CString} :
    optional value = none ↔ CString.Garbled value := by
  cases value with
  | none => simp [optional, CString.Garbled]
  | some s => simp [optional, CString.Garbled, CString.text?_eq_none_iff]

/-- Each setting is copied to its place. -/
theorem texts?_eq_some_iff :
    raw.texts? = some c ↔
      required raw.binaryPath = some c.binaryPath ∧ required raw.address = some c.address ∧
        required raw.netmask = some c.netmask ∧ required raw.socksServer = some c.socksServer ∧
        optional raw.udpGateway = some c.udpGateway ∧
        optional raw.dnsGateway = some c.dnsGateway ∧ raw.tunnelFd = c.tunnelFd := by
  obtain ⟨path, fd, address, netmask, socks, udp, dns⟩ := c
  simp [texts?, Option.bind_eq_some_iff]

/-- The pointers that have to lead to a text. -/
def needed (raw : RawHelperConfig) : List (Option CString) :=
  [raw.binaryPath, raw.address, raw.netmask, raw.socksServer]

/-- The pointers that may be null. -/
def gateways (raw : RawHelperConfig) : List (Option CString) :=
  [raw.udpGateway, raw.dnsGateway]

theorem exists_texts_iff :
    (∃ c, raw.texts? = some c) ↔
      (∀ value ∈ raw.needed, required value ≠ none) ∧
        ∀ value ∈ raw.gateways, optional value ≠ none := by
  simp only [needed, gateways, List.forall_mem_cons, List.not_mem_nil, false_imp_iff, implies_true,
    and_true, Option.ne_none_iff_exists']
  constructor
  · rintro ⟨c, hc⟩
    obtain ⟨path, address, netmask, socks, udp, dns, -⟩ := texts?_eq_some_iff.mp hc
    exact ⟨⟨⟨_, path⟩, ⟨_, address⟩, ⟨_, netmask⟩, ⟨_, socks⟩⟩, ⟨_, udp⟩, ⟨_, dns⟩⟩
  · rintro ⟨⟨⟨_, path⟩, ⟨_, address⟩, ⟨_, netmask⟩, ⟨_, socks⟩⟩, ⟨_, udp⟩, ⟨_, dns⟩⟩
    exact ⟨⟨_, raw.tunnelFd, _, _, _, _, _⟩,
      texts?_eq_some_iff.mpr ⟨path, address, netmask, socks, udp, dns, rfl⟩⟩

/-- Settings do not come in exactly where a string that is needed is null or no
    text, or a gateway is there and no text. -/
theorem texts?_eq_none_iff :
    raw.texts? = none ↔ (∃ value ∈ raw.needed, value = none ∨ CString.Garbled value) ∨
      ∃ value ∈ raw.gateways, CString.Garbled value := by
  have some : ¬ (∃ c, raw.texts? = some c) ↔ raw.texts? = none := by
    simp [Option.eq_none_iff_forall_ne_some]
  rw [← some, exists_texts_iff, not_and_or]
  simp only [not_forall, ne_eq, not_not, required_eq_none_iff, optional_eq_none_iff, exists_prop]

/-- A null gateway is an empty one. -/
theorem texts?_null_gateways (raw : RawHelperConfig) :
    { raw with udpGateway := none }.texts? = { raw with udpGateway := some .empty }.texts? ∧
      { raw with dnsGateway := none }.texts? = { raw with dnsGateway := some .empty }.texts? := by
  simp [texts?, optional]

/-- What comes in holds no NUL. -/
theorem noNul_of_texts? (h : raw.texts? = some c) :
    ∀ field ∈ HelperField.checked, ¬ c.HoldsNul field := by
  have needed : ∀ {value : Option CString} {text : String}, required value = some text →
      '\x00' ∉ text.toList := by
    intro value text hv
    obtain ⟨s, -, hs⟩ := Option.bind_eq_some_iff.mp hv
    exact CString.nul_not_mem_text hs
  have gateway : ∀ {value : Option CString} {text : String}, optional value = some text →
      '\x00' ∉ text.toList := by
    intro value text hv
    cases value with
    | none =>
      obtain rfl := Option.some.inj hv
      decide
    | some s => exact CString.nul_not_mem_text hv
  obtain ⟨path, address, netmask, socks, udp, dns, -⟩ := texts?_eq_some_iff.mp h
  simp only [HelperField.checked, List.forall_mem_cons]
  exact ⟨needed path, needed address, needed netmask, needed socks, gateway udp, gateway dns,
    nofun⟩

/-- Only an empty string comes in as the empty text. -/
theorem binaryPath_eq_empty_iff (h : raw.texts? = some c) :
    c.binaryPath = "" ↔ raw.binaryPath = some .empty := by
  obtain ⟨s, hs, path⟩ := Option.bind_eq_some_iff.mp (texts?_eq_some_iff.mp h).1
  rw [hs, Option.some.injEq]
  constructor
  · intro empty
    rw [empty] at path
    exact CString.ext (CString.text?_eq_some_iff.mp path).symm
  · rintro rfl
    exact Option.some.inj (path.symm.trans CString.text?_empty)

end RawHelperConfig

/-! ### The entry point -/

namespace Entry

/-- A request to launch a helper that comes to nothing. -/
def Refused (config : Option RawHelperConfig) : Prop :=
  config = none ∨ ∃ raw, config = some raw ∧ (raw.texts? = none ∨ raw.binaryPath = some .empty)

/-- A launch, by way of the bridge if there is one. -/
def launching (ready : Bool) (c : HelperConfig) : Operation (Except LaunchError HelperProcess) :=
  if ready then Bridge.startHelper c else Helper.launch c

/-- What is answered to the caller who launches a helper. -/
def answering (m : Operation (Except LaunchError HelperProcess)) : Operation Int32 := do
  match ← m with
  | .ok helper => pure helper.pid.number
  | .error e =>
    Log.error s!"{Point.startHelper.name}: {e.message}"
    pure launchFailedPid

/-- The state once a helper was launched, where that is counted. -/
def counting (ready : Bool) (s : State) : State :=
  if ready then { s with counters := s.counters.bump .helpersLaunched } else s

variable {c : HelperConfig} {raw : RawHelperConfig} {config : Option RawHelperConfig}
  {thread : Thread} {s : State}

theorem helpersLaunched_counting (ready : Bool) (s : State) :
    (counting ready s).counters.helpersLaunched =
      s.counters.helpersLaunched + if ready = true then 1 else 0 := by
  cases ready with
  | false => exact (UInt64.add_zero _).symm
  | true => rfl

theorem startHelper_eq (h : raw.texts? = some c) :
    startHelper (some raw) thread s = answering (launching (isReady s) c) thread s := by
  simp only [startHelper, h, launching, Operation.bind_apply, Operation.state_apply, Progress.bind]
  cases isReady s <;> rfl

theorem launching_fault {ready : Bool} {e : LaunchError} (h : c.fault? = some e) :
    launching ready c thread s = .finished (.error e) s := by
  cases ready with
  | false => exact Helper.launch_fault h
  | true =>
    show Bridge.startHelper c thread s = _
    rw [Bridge.startHelper, Operation.bind_apply, Helper.launch_fault h]
    rfl

theorem launching_valid (ready : Bool) (thread : Thread) (s : State) (h : c.Valid) :
    ∃ argv resume, argv.map (·.bytes) = c.argv.map String.toUTF8 ∧
      launching ready c thread s =
        .calling (.system (.spawn argv.head? (CString.pointers argv))) s resume ∧
      ∀ pid s', ∃ said, (resume pid s').Speaks (.ok ⟨pid, c.argv⟩) (counting ready s') said := by
  obtain ⟨argv, bytes, launched⟩ := Helper.launch_valid thread s h
  cases ready with
  | false => exact ⟨argv, _, bytes, launched, fun pid s' => Helper.report_speaks c pid thread s'⟩
  | true =>
    have counted : launching true c thread s = _ := congrArg (Progress.bind · _) launched
    refine ⟨argv, _, bytes, counted, fun pid s' => ?_⟩
    obtain ⟨said, told⟩ := Helper.report_speaks c pid thread s'
    exact ⟨said, told.then_ends rfl⟩

/-- A refused request is logged, and changes nothing. -/
theorem startHelper_refused (thread : Thread) (s : State) (h : Refused config) :
    ∃ said, (startHelper config thread s).Speaks launchFailedPid s said := by
  obtain rfl | ⟨raw, rfl, h⟩ := h
  · exact ⟨_, Log.emit_speaks.then_ends rfl⟩
  cases hc : raw.texts? with
  | none =>
    simp only [startHelper, hc]
    exact ⟨_, Log.emit_speaks.then_ends rfl⟩
  | some c =>
    have empty : c.binaryPath = "" := by
      rw [hc] at h
      exact (RawHelperConfig.binaryPath_eq_empty_iff hc).mpr (h.resolve_left nofun)
    rw [startHelper_eq hc, answering, Operation.bind_apply,
      launching_fault (HelperConfig.fault?_of_empty empty)]
    exact ⟨_, Log.emit_speaks.then_ends rfl⟩

/-- A request that is not refused starts a child with the arguments of the
    settings that came in, and answers with its number. -/
theorem startHelper_launches (thread : Thread) (s : State) (h : raw.texts? = some c)
    (hp : c.binaryPath ≠ "") :
    ∃ argv resume, argv.map (·.bytes) = c.argv.map String.toUTF8 ∧
      startHelper (some raw) thread s =
        .calling (.system (.spawn argv.head? (CString.pointers argv))) s resume ∧
      ∀ pid s', ∃ said, (resume pid s').Speaks pid.number (counting (isReady s) s') said := by
  have valid : c.Valid := ⟨hp, RawHelperConfig.noNul_of_texts? h⟩
  obtain ⟨argv, resume, bytes, launched, goes⟩ := launching_valid (isReady s) thread s valid
  rw [startHelper_eq h, answering, Operation.bind_apply, launched]
  refine ⟨argv, _, bytes, rfl, fun pid s' => ?_⟩
  obtain ⟨said, told⟩ := goes pid s'
  exact ⟨said, told.then_ends rfl⟩

theorem refused_or_launches (config : Option RawHelperConfig) :
    Refused config ∨ ∃ raw c, config = some raw ∧ raw.texts? = some c ∧ c.binaryPath ≠ "" := by
  cases config with
  | none => exact .inl (.inl rfl)
  | some raw =>
    cases hc : raw.texts? with
    | none => exact .inl (.inr ⟨raw, rfl, .inl hc⟩)
    | some c =>
      by_cases hp : c.binaryPath = ""
      · exact .inl (.inr ⟨raw, rfl, .inr ((RawHelperConfig.binaryPath_eq_empty_iff hc).mp hp)⟩)
      · exact .inr ⟨raw, c, rfl, hc, hp⟩

/-- A request that goes on to launch is not refused. -/
theorem not_refused (h : raw.texts? = some c) (hp : c.binaryPath ≠ "") : ¬ Refused (some raw) := by
  rintro (hn | ⟨_, same, hn | empty⟩)
  · cases hn
  · cases Option.some.inj same
    cases h.symm.trans hn
  · cases Option.some.inj same
    exact hp ((RawHelperConfig.binaryPath_eq_empty_iff h).mpr empty)

/-- Foreign code that may not use the bridge leaves its state alone. -/
def Discreet {ε : Type} (behaviour : (call : Call) → State → ε → call.Reply × State × ε) : Prop :=
  ∀ call s e, call.mayReenter = false → (behaviour call s e).2.1 = s

section Discreet

variable {α ε : Type} {behaviour : (call : Call) → State → ε → call.Reply × State × ε}

theorem run_calling (quiet : Discreet behaviour) {call : Call} (hq : call.mayReenter = false)
    (s : State) (resume : call.Reply → State → Progress α) (e : ε) :
    (Progress.calling call s resume).run behaviour e =
      (resume (behaviour call s e).1 s).run behaviour (behaviour call s e).2.2 := by
  have same := quiet call s e hq
  show (resume _ (behaviour call s e).2.1).run behaviour _ = _
  rw [same]

theorem run_speaks (quiet : Discreet behaviour) {p : Progress α} {a : α}
    {said : List (Log.Line × State)} (hp : p.Speaks a s said) (e : ε) :
    ∃ e', p.run behaviour e = (a, s, e') := by
  induction hp generalizing e with
  | ends => exact ⟨e, rfl⟩
  | line _ ih =>
    rw [run_calling quiet rfl]
    exact ih _

/-- How a request to launch a helper ends: with a number above zero, which is
    counted if there is a bridge, or with the one that stands for none. -/
theorem run_startHelper (config : Option RawHelperConfig) (thread : Thread) (s : State)
    (quiet : Discreet behaviour) (e : ε) :
    let outcome := (startHelper config thread s).run behaviour e
    (outcome.1 = launchFailedPid ↔ Refused config) ∧
      outcome.2.1 = counting (decide (outcome.1 ≠ launchFailedPid) && isReady s) s := by
  obtain refused | ⟨raw, c, rfl, hc, hp⟩ := refused_or_launches config
  · obtain ⟨said, speaks⟩ := startHelper_refused thread s refused
    obtain ⟨e', ended⟩ := run_speaks quiet speaks e
    rw [ended]
    exact ⟨iff_of_true rfl refused, rfl⟩
  · obtain ⟨argv, resume, -, launched, goes⟩ := startHelper_launches thread s hc hp
    rw [launched, run_calling quiet rfl]
    -- the number is whatever the operating system says, and numbers are above zero
    generalize behaviour (.system (.spawn argv.head? (CString.pointers argv))) s e = reply
    obtain ⟨said, speaks⟩ := goes reply.1 s
    obtain ⟨e', ended⟩ := run_speaks quiet speaks reply.2.2
    have positive : reply.1.number ≠ launchFailedPid := by
      intro same
      have pos := reply.1.pos
      rw [same] at pos
      cases pos
    rw [ended]
    exact ⟨iff_of_false positive (not_refused hc hp), by simp [positive]⟩

end Discreet

end Entry

/-! ### The command line -/

/-- A helper that the command line launches gets the arguments that were printed
    just before. -/
theorem CommandLine.launch_printed {settings : Settings} (h : settings.helper.Valid)
    (thread : Thread) (s : State) :
    ∃ resume, launch settings thread s =
        .calling (.system (.print .errors
          ("[standalone] launching helper: " ++ " ".intercalate settings.helper.argv))) s resume ∧
      ∀ s', ∃ argv resume', argv.map (·.bytes) = settings.helper.argv.map String.toUTF8 ∧
        resume () s' =
          .calling (.system (.spawn argv.head? (CString.pointers argv))) s' resume' := by
  obtain ⟨raw, out, back⟩ := HelperConfig.exists_toRaw h.noNul
  simp only [launch, complain, out, Operation.bind_apply, Operation.call_apply, Progress.bind,
    HelperConfig.commandLine, toString]
  refine ⟨_, rfl, fun s' => ?_⟩
  obtain ⟨argv, resume, bytes, launched, -⟩ := Entry.startHelper_launches thread s' back h.path
  simp only [Progress.bind, launched]
  exact ⟨argv, _, bytes, rfl⟩

/-- **Settings across the boundary.**  Exactly the settings without NUL go out,
    and they come back as they were, so the command line launches what it
    prints.  What cannot come in is a string that is needed and null, or one
    that is no text; an empty gateway and a null one are the same; and nothing
    that comes in holds a NUL.  So a request to launch a helper fails only for
    want of settings or of a program, and it is counted exactly where it
    succeeds and there is a bridge. -/
theorem helper_settings_cross :
    (∀ c : HelperConfig, (∀ field ∈ HelperField.checked, ¬ c.HoldsNul field) →
      ∃ raw, c.toRaw = .ok raw ∧ raw.texts? = some c) ∧
    (∀ c : HelperConfig,
      (∃ e, c.toRaw = .error e) ↔ ∃ field ∈ HelperField.checked, c.HoldsNul field) ∧
    (∀ (settings : CommandLine.Settings) (thread : Thread) (s : State), settings.helper.Valid →
      ∃ resume, CommandLine.launch settings thread s =
          .calling (.system (.print .errors
            ("[standalone] launching helper: " ++ " ".intercalate settings.helper.argv))) s resume ∧
        ∀ s', ∃ argv resume', argv.map (·.bytes) = settings.helper.argv.map String.toUTF8 ∧
          resume () s' =
            .calling (.system (.spawn argv.head? (CString.pointers argv))) s' resume') ∧
    (∀ raw : RawHelperConfig, raw.texts? = none ↔
      (∃ value ∈ [raw.binaryPath, raw.address, raw.netmask, raw.socksServer],
        value = none ∨ CString.Garbled value) ∨
      ∃ value ∈ [raw.udpGateway, raw.dnsGateway], CString.Garbled value) ∧
    (∀ raw : RawHelperConfig,
      { raw with udpGateway := none }.texts? = { raw with udpGateway := some .empty }.texts? ∧
      { raw with dnsGateway := none }.texts? = { raw with dnsGateway := some .empty }.texts?) ∧
    (∀ (raw : RawHelperConfig) (c : HelperConfig), raw.texts? = some c →
      ∀ field ∈ HelperField.checked, ¬ c.HoldsNul field) ∧
    ∀ {ε : Type} (behaviour : (call : Call) → State → ε → call.Reply × State × ε),
      Entry.Discreet behaviour → ∀ config thread s e,
        let outcome := (Entry.startHelper config thread s).run behaviour e
        (outcome.1 = Entry.launchFailedPid ↔ Entry.Refused config) ∧
        outcome.2.1.counters.helpersLaunched = s.counters.helpersLaunched +
          if outcome.1 ≠ Entry.launchFailedPid ∧ Entry.isReady s then 1 else 0 := by
  refine ⟨fun c => HelperConfig.exists_toRaw, fun c => HelperConfig.toRaw_error_iff,
    fun settings thread s valid => CommandLine.launch_printed valid thread s,
    fun raw => RawHelperConfig.texts?_eq_none_iff, RawHelperConfig.texts?_null_gateways,
    fun raw c => RawHelperConfig.noNul_of_texts?, fun behaviour quiet config thread s e => ?_⟩
  obtain ⟨refused, state⟩ := Entry.run_startHelper config thread s quiet e
  exact ⟨refused, by simp [state, Entry.helpersLaunched_counting]⟩

/-- Settings with characters of all lengths go out, come back and are launched,
    and the bridge counts it. -/
theorem helper_settings_cross_counted :
    let behaviour := fun (call : Call) (s : State) (e : Unit) =>
      (Run.Sample.steady.answer call, s, e)
    let ready : State := { State.initial 1 with startup := some (.ok ()) }
    ∃ raw, Helper.plainTexts.toRaw = .ok raw ∧ raw.texts? = some Helper.plainTexts ∧
      Entry.Discreet behaviour ∧
      let outcome := (Entry.startHelper (some raw) ⟨"main"⟩ ready).run behaviour ()
      outcome.1 ≠ Entry.launchFailedPid ∧ outcome.2.1.counters.helpersLaunched = 1 := by
  intro behaviour ready
  obtain ⟨out, -, -, -, -, -, started⟩ := helper_settings_cross
  obtain ⟨raw, hraw, back⟩ := out Helper.plainTexts (by decide)
  have discreet : Entry.Discreet behaviour := fun _ _ _ _ => rfl
  obtain ⟨refused, counted⟩ := started behaviour discreet (some raw) ⟨"main"⟩ ready ()
  have succeeds := mt refused.mp (Entry.not_refused back (by decide))
  exact ⟨raw, hraw, back, discreet, succeeds, counted.trans (by rw [if_pos ⟨succeeds, rfl⟩]; rfl)⟩

end CallbackBridge
