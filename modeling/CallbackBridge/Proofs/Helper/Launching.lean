import CallbackBridge.Helper.Process
import CallbackBridge.Proofs.Helper.Arguments
import CallbackBridge.Proofs.Run.Monologues

/-! # Launching a helper

    The settings are checked before a child is started, and the arguments are
    made from them in another place.  Here the two are held together: what
    passes the check has a foreign form, argument by argument, so a child is
    started with exactly the arguments that were built.

    Key ideas:

    1. A text has a foreign form exactly where it holds no NUL, since only a
       NUL is encoded with a zero byte (`zero_mem_toUTF8_iff`).
    2. Every argument is the program, a flag, a number, or one of the texts
       that are checked (`nul_not_mem_argv`).
    3. A launch either ends at once with the first fault, or starts a child as
       the first thing it does and only logs after that (`launch_valid`). -/

namespace CallbackBridge

/-! ### NULs in texts -/

namespace Text.Utf8

theorem zero_mem_utf8EncodeChar_iff {c : Char} : 0 ∈ String.utf8EncodeChar c ↔ c = '\x00' := by
  have same : c = '\x00' ↔ c.val.toNat = 0 := by
    rw [Char.ext_iff, ← UInt32.toNat_inj]
    rfl
  have zero : ∀ n : Nat, (0 : UInt8) = UInt8.ofNat n ↔ n % 256 = 0 := by
    intro n
    rw [← UInt8.toNat_inj, UInt8.toNat_ofNat', eq_comm]
    rfl
  have bound := c.val.toNat_lt
  rw [same, String.utf8EncodeChar]
  -- one to four bytes; all but a single one have a leading bit
  split
  · simp only [List.mem_singleton, zero]
    omega
  split
  · simp only [List.mem_cons, List.not_mem_nil, or_false, zero]
    omega
  split
  · simp only [List.mem_cons, List.not_mem_nil, or_false, zero]
    omega
  · simp only [List.mem_cons, List.not_mem_nil, or_false, zero]
    omega

/-- A text holds a NUL exactly where its encoding holds a zero byte. -/
theorem zero_mem_toUTF8_iff {text : String} : 0 ∈ text.toUTF8.data ↔ '\x00' ∈ text.toList := by
  have bytes : text.toUTF8 = text.toList.utf8Encode := by
    rw [String.toUTF8_eq_toByteArray, ← String.toByteArray_ofList, String.ofList_toList]
  rw [bytes, List.utf8Encode, List.data_toByteArray, List.mem_toArray]
  simp [zero_mem_utf8EncodeChar_iff]

end Text.Utf8

/-- A text without NUL has a foreign form, of the same bytes. -/
theorem CString.exists_ofText? {text : String} (h : '\x00' ∉ text.toList) :
    ∃ s, CString.ofText? text = some s ∧ s.bytes = text.toUTF8 :=
  ⟨_, dif_neg (mt Text.Utf8.zero_mem_toUTF8_iff.mp h), rfl⟩

/-! ### The check -/

/-- The settings that are texts, in the order in which they are checked. -/
def HelperField.checked : List HelperField :=
  [.binaryPath, .address, .netmask, .socksServer, .udpGateway, .dnsGateway]

namespace HelperConfig

/-- The text of a setting; an argument is none. -/
def text (c : HelperConfig) : HelperField → String
  | .binaryPath => c.binaryPath
  | .address => c.address
  | .netmask => c.netmask
  | .socksServer => c.socksServer
  | .udpGateway => c.udpGateway
  | .dnsGateway => c.dnsGateway
  | .argument => ""

/-- A setting holds a NUL. -/
def HoldsNul (c : HelperConfig) (field : HelperField) : Prop :=
  '\x00' ∈ (c.text field).toList

instance (c : HelperConfig) (field : HelperField) : Decidable (c.HoldsNul field) :=
  inferInstanceAs (Decidable ('\x00' ∈ (c.text field).toList))

/-- The first setting that holds a NUL. -/
def FirstNul (c : HelperConfig) (field : HelperField) : Prop :=
  ∃ before after, HelperField.checked = before ++ field :: after ∧ c.HoldsNul field ∧
    ∀ f ∈ before, ¬ c.HoldsNul f

/-- A helper can be launched with these settings. -/
structure Valid (c : HelperConfig) : Prop where
  path : c.binaryPath ≠ ""
  noNul : ∀ field ∈ HelperField.checked, ¬ c.HoldsNul field

variable {c : HelperConfig}

theorem contains_nul_iff {field : HelperField} :
    (c.text field).contains '\x00' = true ↔ c.HoldsNul field := by
  rw [String.contains_char_eq, decide_eq_true_iff]
  rfl

theorem fault?_of_empty (h : c.binaryPath = "") : c.fault? = some .emptyBinaryPath :=
  if_pos (by simpa using h)

theorem fault?_of_path (h : c.binaryPath ≠ "") :
    c.fault? = (HelperField.checked.find? fun f => (c.text f).contains '\x00').map
      .interiorNul := by
  have texts : c.texts = HelperField.checked.map fun f => (f, c.text f) := rfl
  rw [fault?, if_neg (by simpa using h), texts, List.find?_map, Option.map_map]
  rfl

theorem firstNul_iff {field : HelperField} :
    c.FirstNul field ↔
      HelperField.checked.find? (fun f => (c.text f).contains '\x00') = some field := by
  simp only [List.find?_eq_some_iff_append, contains_nul_iff, Bool.not_eq_true',
    ← Bool.not_eq_true, FirstNul]
  constructor
  · exact fun ⟨before, after, eq, holds, first⟩ => ⟨holds, before, after, eq, first⟩
  · exact fun ⟨holds, before, after, eq, first⟩ => ⟨before, after, eq, holds, first⟩

/-- The check finds the first fault, the missing program before all others. -/
theorem fault?_eq_some_iff {e : LaunchError} :
    c.fault? = some e ↔ c.binaryPath = "" ∧ e = .emptyBinaryPath ∨
      c.binaryPath ≠ "" ∧ ∃ field, c.FirstNul field ∧ e = .interiorNul field := by
  by_cases h : c.binaryPath = ""
  · simp [fault?_of_empty h, h, eq_comm]
  · simp [fault?_of_path h, h, firstNul_iff, eq_comm]

theorem fault?_eq_none_iff : c.fault? = none ↔ c.Valid := by
  by_cases h : c.binaryPath = ""
  · exact iff_of_false (by simp [fault?_of_empty h]) fun valid => valid.path h
  · rw [fault?_of_path h, Option.map_eq_none_iff, List.find?_eq_none]
    simp only [contains_nul_iff]
    exact ⟨fun noNul => ⟨h, noNul⟩, Valid.noNul⟩

/-! ### The arguments -/

/-- An argument is the program, a flag or a value. -/
theorem of_mem_argv {a : String} (h : a ∈ c.argv) :
    a = c.binaryPath ∨ ∃ o, a = HelperOption.flag o ∨ c.value? o = some a := by
  rw [argv_eq, List.mem_cons, List.mem_flatMap] at h
  obtain rfl | ⟨⟨o, value⟩, ho, ha⟩ := h
  · exact .inl rfl
  · simp only [List.mem_cons, List.not_mem_nil, or_false] at ha
    obtain rfl | rfl := ha
    · exact .inr ⟨o, .inl rfl⟩
    · exact .inr ⟨o, .inr (mem_told.mp ho)⟩

/-- A value that is given is a number, a word, or one of the texts. -/
theorem nul_not_mem_value {o : HelperOption} {value : String}
    (noNul : ∀ field ∈ HelperField.checked, ¬ c.HoldsNul field) (h : c.value? o = some value) :
    '\x00' ∉ value.toList := by
  cases o with
  | tunnelFd =>
    obtain rfl := Option.some.inj h
    exact Text.Decimal.nul_not_mem_ofInt _
  | logLevel =>
    obtain rfl := Option.some.inj h
    decide
  | address => exact Option.some.inj h ▸ noNul .address (by decide)
  | netmask => exact Option.some.inj h ▸ noNul .netmask (by decide)
  | socksServer => exact Option.some.inj h ▸ noNul .socksServer (by decide)
  | udpGateway =>
    obtain ⟨-, same⟩ := Option.ite_none_left_eq_some.mp h
    exact Option.some.inj same ▸ noNul .udpGateway (by decide)
  | dnsGateway =>
    obtain ⟨-, same⟩ := Option.ite_none_left_eq_some.mp h
    exact Option.some.inj same ▸ noNul .dnsGateway (by decide)

/-- The check covers all that the arguments are made from. -/
theorem nul_not_mem_argv (noNul : ∀ field ∈ HelperField.checked, ¬ c.HoldsNul field) :
    ∀ a ∈ c.argv, '\x00' ∉ a.toList := by
  intro a ha
  obtain rfl | ⟨o, rfl | hv⟩ := of_mem_argv ha
  · exact noNul .binaryPath (by decide)
  · cases o <;> decide
  · exact nul_not_mem_value noNul hv

end HelperConfig

namespace Helper

theorem exists_foreignArgv {args : List String} (h : ∀ a ∈ args, '\x00' ∉ a.toList) :
    ∃ argv, foreignArgv args = .ok argv ∧ argv.map (·.bytes) = args.map String.toUTF8 := by
  induction args with
  | nil => exact ⟨[], rfl, rfl⟩
  | cons a rest ih =>
    obtain ⟨ha, hrest⟩ := List.forall_mem_cons.mp h
    obtain ⟨s, hs, bytes⟩ := CString.exists_ofText? ha
    obtain ⟨argv, hargv, more⟩ := ih hrest
    refine ⟨s :: argv, ?_, by rw [List.map_cons, List.map_cons, bytes, more]⟩
    simp only [foreignArgv, hs, hargv]
    rfl

/-! ### The launch -/

variable {c : HelperConfig} {thread : Thread} {s : State}

/-- A launch that fails does nothing else. -/
theorem launch_fault {e : LaunchError} (h : c.fault? = some e) :
    launch c thread s = .finished (.error e) s := by
  simp only [launch, h, Operation.pure_apply]

/-- What is left to do once a child has been started. -/
def report (c : HelperConfig) (pid : Pid) : Operation (Except LaunchError HelperProcess) := do
  let number := Text.Decimal.ofInt pid.number.toInt
  Log.info s!"launched helper pid={number}: {c.commandLine}"
  pure (.ok ⟨pid, c.argv⟩)

/-- It is to tell the log. -/
theorem report_speaks (c : HelperConfig) (pid : Pid) (thread : Thread) (s : State) :
    ∃ said, (report c pid thread s).Speaks (.ok ⟨pid, c.argv⟩) s said :=
  ⟨_, Log.emit_speaks.then_ends rfl⟩

/-- A launch of valid settings starts a child with the arguments that were
    built. -/
theorem launch_valid (thread : Thread) (s : State) (h : c.Valid) : ∃ argv,
    argv.map (·.bytes) = c.argv.map String.toUTF8 ∧
    launch c thread s = .calling (.system (.spawn argv.head? (CString.pointers argv))) s
      fun pid s' => report c pid thread s' := by
  obtain ⟨argv, hargv, bytes⟩ := exists_foreignArgv (HelperConfig.nul_not_mem_argv h.noNul)
  have head : (CString.pointers argv).headD none = argv.head? := by
    cases argv <;> rfl
  refine ⟨argv, bytes, ?_⟩
  rw [← head]
  simp only [launch, HelperConfig.fault?_eq_none_iff.mpr h, hargv]
  rfl

/-- A launch fails at once exactly where the check finds a fault. -/
theorem launch_finished_iff {e : LaunchError} :
    launch c thread s = .finished (.error e) s ↔ c.fault? = some e := by
  cases hf : c.fault? with
  | none =>
    obtain ⟨argv, -, launched⟩ :=
      launch_valid thread s (HelperConfig.fault?_eq_none_iff.mp hf)
    rw [launched]
    exact iff_of_false nofun nofun
  | some e' =>
    rw [launch_fault hf]
    simp

theorem launch_fails_iff (thread : Thread) (s : State) :
    (∃ e, launch c thread s = .finished (.error e) s) ↔ ¬ c.Valid := by
  simp only [launch_finished_iff, ← HelperConfig.fault?_eq_none_iff, ← ne_eq,
    Option.ne_none_iff_exists']

theorem launch_starts_iff :
    (∃ program pointers resume,
      launch c thread s = .calling (.system (.spawn program pointers)) s resume) ↔ c.Valid := by
  constructor
  · rintro ⟨_, _, _, launched⟩
    refine not_not.mp fun invalid => ?_
    obtain ⟨e, failed⟩ := (launch_fails_iff thread s).mpr invalid
    cases launched.symm.trans failed
  · intro valid
    obtain ⟨argv, -, launched⟩ := launch_valid thread s valid
    exact ⟨_, _, _, launched⟩

/-- **Launches.**  A child is started exactly where there is a program and no
    text of the settings holds a NUL; otherwise the launch ends with the first
    fault and does nothing.  No fault is left for the arguments.  The child
    gets them byte for byte, the program first and a null pointer last, and the
    launch answers with the same arguments. -/
theorem launch_exact (c : HelperConfig) (thread : Thread) (s : State) :
    ((∃ program pointers resume,
      launch c thread s = .calling (.system (.spawn program pointers)) s resume) ↔ c.Valid) ∧
    ((∃ e, launch c thread s = .finished (.error e) s) ↔ ¬ c.Valid) ∧
    (∀ e, launch c thread s = .finished (.error e) s ↔
      c.binaryPath = "" ∧ e = .emptyBinaryPath ∨
        c.binaryPath ≠ "" ∧ ∃ field, c.FirstNul field ∧ e = .interiorNul field) ∧
    HelperField.checked.map HelperField.name =
      ["binary path", "address", "netmask", "socks server", "udpgw address", "dnsgw address"] ∧
    (c.fault? = none → ∀ e, foreignArgv c.argv ≠ .error e) ∧
    ∀ program pointers resume,
      launch c thread s = .calling (.system (.spawn program pointers)) s resume →
      ∃ argv : List CString, argv.map (·.bytes) = c.argv.map String.toUTF8 ∧
        pointers = argv.map some ++ [none] ∧ program = argv.head? ∧
        ∀ pid s', ∃ said, (resume pid s').Speaks (.ok ⟨pid, c.argv⟩) s' said := by
  refine ⟨launch_starts_iff, launch_fails_iff thread s, fun e => ?_, rfl, fun passed e => ?_,
    fun program pointers resume launched => ?_⟩
  · rw [launch_finished_iff, HelperConfig.fault?_eq_some_iff]
  · have noNul := (HelperConfig.fault?_eq_none_iff.mp passed).noNul
    obtain ⟨argv, hargv, -⟩ := exists_foreignArgv (HelperConfig.nul_not_mem_argv noNul)
    rw [hargv]
    nofun
  · have valid : c.Valid := launch_starts_iff.mp ⟨_, _, _, launched⟩
    obtain ⟨argv, bytes, built⟩ := launch_valid thread s valid
    cases launched.symm.trans built
    exact ⟨argv, bytes, rfl, rfl, fun pid s' => report_speaks c pid thread s'⟩

/-- Two texts hold a NUL, and one is a NUL and nothing else. -/
def twoNuls : HelperConfig := ⟨"/bin/h", 3, "--tunfd", "\x00", "", "u\x00v", ""⟩

/-- Texts of all lengths of characters, and empty ones. -/
def plainTexts : HelperConfig := ⟨"/bin/h", -3, "", "é€😀", "--dnsgw", "", " "⟩

theorem launch_exact_plain :
    launch twoNuls ⟨"main"⟩ (.initial 1) =
      .finished (.error (.interiorNul .netmask)) (.initial 1) ∧
    plainTexts.Valid ∧
    ∃ program pointers resume, launch plainTexts ⟨"main"⟩ (.initial 1) =
        .calling (.system (.spawn program pointers)) (.initial 1) resume ∧
      ∃ argv : List CString, argv.map (·.bytes) = plainTexts.argv.map String.toUTF8 ∧
        pointers = argv.map some ++ [none] ∧ program = argv.head? := by
  have valid : plainTexts.Valid := ⟨by decide, by decide⟩
  have first : twoNuls.FirstNul .netmask := ⟨[.binaryPath, .address], _, rfl, by decide, by decide⟩
  obtain ⟨-, -, faults, -⟩ := launch_exact twoNuls ⟨"main"⟩ (.initial 1)
  obtain ⟨starts, -, -, -, -, built⟩ := launch_exact plainTexts ⟨"main"⟩ (.initial 1)
  obtain ⟨program, pointers, resume, launched⟩ := starts.mpr valid
  obtain ⟨argv, bytes, ends, head, -⟩ := built _ _ _ launched
  exact ⟨(faults _).mpr (.inr ⟨by decide, _, first, rfl⟩), valid, program, pointers, resume,
    launched, argv, bytes, ends, head⟩

end Helper

end CallbackBridge
