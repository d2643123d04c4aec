import CallbackBridge.Helper.Config
import CallbackBridge.Proofs.Numerals

/-! # The arguments of a helper, read back

    The texts of a helper's settings are free: each may look like a flag, or
    like the text of another setting.  The arguments tell them apart all the
    same, by where they stand.

    Key ideas:

    1. After the program, flags and values take turns.  So a flag is only
       looked for where a flag can stand, and never in a value.
    2. Up to the address of the proxy server everything stands at a fixed
       place.  Of the two gateways each is there or not, and the flag that
       stands where its own would says which (`takeOptional`). -/

namespace CallbackBridge

/-! ### Flags and values -/

/-- What an argument of a helper is about. -/
inductive HelperOption where
  | tunnelFd
  | address
  | netmask
  | socksServer
  | udpGateway
  | dnsGateway
  | logLevel
  deriving DecidableEq, Repr

namespace HelperOption

/-- All of them, in the order in which a helper expects them. -/
def all : List HelperOption :=
  [.tunnelFd, .address, .netmask, .socksServer, .udpGateway, .dnsGateway, .logLevel]

/-- The flag that announces a value. -/
def flag : HelperOption → String
  | .tunnelFd => "--tunfd"
  | .address => "--netif-ipaddr"
  | .netmask => "--netif-netmask"
  | .socksServer => "--socks-server-addr"
  | .udpGateway => "--udpgw-remote-server-addr"
  | .dnsGateway => "--dnsgw"
  | .logLevel => "--loglevel"

theorem mem_all (o : HelperOption) : o ∈ all := by
  cases o <;> decide

theorem flag_injective {o p : HelperOption} (h : o.flag = p.flag) : o = p := by
  have distinct : ∀ o ∈ all, ∀ p ∈ all, o.flag = p.flag → o = p := by decide
  exact distinct o o.mem_all p p.mem_all h

end HelperOption

namespace HelperConfig

/-- The largest number of arguments, the program included. -/
def maxArguments : Nat := 15

/-- The value that a helper is told, if it is told one. -/
def value? (c : HelperConfig) : HelperOption → Option String
  | .tunnelFd => some (Text.Decimal.ofInt c.tunnelFd.toInt)
  | .address => some c.address
  | .netmask => some c.netmask
  | .socksServer => some c.socksServer
  | .udpGateway => if c.udpGateway = "" then none else some c.udpGateway
  | .dnsGateway => if c.dnsGateway = "" then none else some c.dnsGateway
  | .logLevel => some "notice"

/-- All that a helper is told, in order. -/
def told (c : HelperConfig) : List (HelperOption × String) :=
  HelperOption.all.filterMap fun o => (c.value? o).map (o, ·)

theorem mem_told {c : HelperConfig} {o : HelperOption} {value : String} :
    (o, value) ∈ c.told ↔ c.value? o = some value := by
  simp [told, List.mem_filterMap, HelperOption.mem_all]

theorem optionalFlag_eq (flag value : String) :
    optionalFlag flag value = if value = "" then [] else [flag, value] := by
  simp [optionalFlag]

/-- Flags and values take turns. -/
theorem argv_eq (c : HelperConfig) :
    c.argv = c.binaryPath :: c.told.flatMap fun x => [x.1.flag, x.2] := by
  simp only [argv, arguments, optionalFlag_eq, told, HelperOption.all, List.filterMap, value?]
  by_cases hu : c.udpGateway = "" <;> by_cases hd : c.dnsGateway = "" <;>
    simp [hu, hd, HelperOption.flag]

theorem length_optionalFlag (flag value : String) :
    (optionalFlag flag value).length = if value = "" then 0 else 2 := by
  rw [optionalFlag_eq]
  split <;> rfl

theorem length_argv (c : HelperConfig) :
    c.argv.length = 11 + (if c.udpGateway = "" then 0 else 2) +
      (if c.dnsGateway = "" then 0 else 2) := by
  simp only [argv, arguments, List.length_cons, List.length_append, length_optionalFlag,
    List.length_nil]
  omega

theorem length_argv_le (c : HelperConfig) : c.argv.length ≤ maxArguments := by
  rw [length_argv]
  split <;> split <;> decide

/-! ### Places -/

/-- Firsts and seconds of some pairs, taking turns. -/
theorem getElem?_turns {α β : Type} (f g : α → β) (pairs : List α) (i : Nat) :
    (pairs.flatMap fun x => [f x, g x])[2 * i]? = pairs[i]?.map f ∧
      (pairs.flatMap fun x => [f x, g x])[2 * i + 1]? = pairs[i]?.map g := by
  induction pairs generalizing i with
  | nil => simp
  | cons x pairs ih =>
    cases i with
    | zero => exact ⟨rfl, rfl⟩
    | succ i => exact ih i

theorem argv_flag (c : HelperConfig) (i : Nat) :
    c.argv[2 * i + 1]? = c.told[i]?.map (·.1.flag) := by
  rw [argv_eq, List.getElem?_cons_succ]
  exact (getElem?_turns _ _ _ i).1

theorem argv_value (c : HelperConfig) (i : Nat) :
    c.argv[2 * i + 2]? = c.told[i]?.map (·.2) := by
  rw [argv_eq, List.getElem?_cons_succ]
  exact (getElem?_turns _ _ _ i).2

/-- What follows a flag, at a place where a flag can stand, is what the helper
    is told by it. -/
theorem exists_place_iff {c : HelperConfig} {o : HelperOption} {value : String} :
    (∃ i, c.argv[2 * i + 1]? = some o.flag ∧ c.argv[2 * i + 2]? = some value) ↔
      c.value? o = some value := by
  simp only [argv_flag, argv_value, ← mem_told, List.mem_iff_getElem?]
  refine exists_congr fun i => ?_
  constructor
  · rintro ⟨hf, hv⟩
    obtain ⟨⟨o', value'⟩, hi, same⟩ := Option.map_eq_some_iff.mp hf
    obtain rfl := HelperOption.flag_injective same
    rw [hi] at hv ⊢
    rw [← Option.some.inj hv]
  · intro hi
    rw [hi]
    exact ⟨rfl, rfl⟩

/-! ### Reading back -/

/-- The value that `flag` announces, if that flag comes first, and what is left
    after it.  Without the flag the value is empty. -/
def takeOptional (flag : String) : List String → String × List String
  | f :: value :: rest => if f = flag then (value, rest) else ("", f :: value :: rest)
  | rest => ("", rest)

/-- The settings that arguments were made from. -/
def ofArgv? : List String → Option HelperConfig
  | path :: _ :: fd :: _ :: address :: _ :: netmask :: _ :: socks :: rest =>
    let (udp, rest) := takeOptional HelperOption.udpGateway.flag rest
    let (dns, _) := takeOptional HelperOption.dnsGateway.flag rest
    (Text.Decimal.int32? fd).map fun fd => ⟨path, fd, address, netmask, socks, udp, dns⟩
  | _ => none

/-- What comes after a gateway never begins as that gateway would. -/
theorem takeOptional_optionalFlag {flag value : String} {rest : List String}
    (h : rest.head? ≠ some flag) :
    takeOptional flag (optionalFlag flag value ++ rest) = (value, rest) := by
  rw [optionalFlag_eq]
  split
  · next empty =>
    subst empty
    cases rest with
    | nil => rfl
    | cons f rest =>
      cases rest with
      | nil => rfl
      | cons value rest => exact if_neg (by simpa using h)
  · exact if_pos rfl

theorem ofArgv?_argv (c : HelperConfig) : ofArgv? c.argv = some c := by
  -- from the end: what follows a gateway is known, and is not that gateway's flag
  have dns : takeOptional HelperOption.dnsGateway.flag
      (optionalFlag "--dnsgw" c.dnsGateway ++ ["--loglevel", "notice"]) =
        (c.dnsGateway, ["--loglevel", "notice"]) :=
    takeOptional_optionalFlag (by decide)
  have udp : takeOptional HelperOption.udpGateway.flag
      (optionalFlag "--udpgw-remote-server-addr" c.udpGateway ++
        (optionalFlag "--dnsgw" c.dnsGateway ++ ["--loglevel", "notice"])) =
        (c.udpGateway, optionalFlag "--dnsgw" c.dnsGateway ++ ["--loglevel", "notice"]) := by
    refine takeOptional_optionalFlag ?_
    rw [optionalFlag_eq]
    split <;> simp [HelperOption.flag]
  simp only [argv, arguments, List.append_assoc, List.cons_append, List.nil_append, ofArgv?, udp,
    dns, Text.Decimal.int32?_ofInt, Option.map_some]

/-- **Arguments of a helper.**  They are eleven and two for each gateway that
    there is, from the program to the level of its log.  One reader gets all
    settings back from them, so that different settings have different
    arguments; and no value is mistaken for a flag or for another value, as
    flags stand at every other place, where no value stands. -/
theorem argv_tells_apart :
    Function.Injective argv ∧
    ∀ c : HelperConfig,
      (c.argv.length = 11 + (if c.udpGateway = "" then 0 else 2) +
        (if c.dnsGateway = "" then 0 else 2) ∧ c.argv.length ≤ maxArguments) ∧
      (c.argv.head? = some c.binaryPath ∧ ["--loglevel", "notice"] <:+ c.argv) ∧
      ofArgv? c.argv = some c ∧
      (∀ i flag, c.argv[2 * i + 1]? = some flag → ∃ o : HelperOption, o.flag = flag) ∧
      ∀ (o : HelperOption) value,
        (∃ i, c.argv[2 * i + 1]? = some o.flag ∧ c.argv[2 * i + 2]? = some value) ↔
          c.value? o = some value := by
  refine ⟨fun c d h => ?_, fun c => ⟨⟨c.length_argv, c.length_argv_le⟩, ⟨rfl, ?_⟩, c.ofArgv?_argv,
    fun i flag h => ?_, fun o value => exists_place_iff⟩⟩
  · exact Option.some.inj (by rw [← c.ofArgv?_argv, h, d.ofArgv?_argv])
  · exact (List.suffix_append ..).trans (List.suffix_cons ..)
  · rw [argv_flag] at h
    obtain ⟨⟨o, _⟩, -, hf⟩ := Option.map_eq_some_iff.mp h
    exact ⟨o, hf⟩

/-- Every text looks like a flag, and the gateway for datagrams is missing. -/
def lookalike : HelperConfig :=
  ⟨"--tunfd", -7, "--dnsgw", "--udpgw-remote-server-addr", "--loglevel", "", "notice"⟩

theorem argv_tells_apart_lookalike :
    lookalike.argv[9]? = some HelperOption.dnsGateway.flag ∧
    lookalike.argv[10]? = some "notice" ∧
    lookalike.value? .dnsGateway = some "notice" ∧
    lookalike.argv.length = 13 ∧ ofArgv? lookalike.argv = some lookalike := by
  obtain ⟨-, facts⟩ := argv_tells_apart
  obtain ⟨⟨length, -⟩, -, read, -, places⟩ := facts lookalike
  have flag : lookalike.argv[9]? = some HelperOption.dnsGateway.flag := by decide
  have value : lookalike.argv[10]? = some "notice" := by decide
  exact ⟨flag, value, (places .dnsGateway "notice").mp ⟨4, flag, value⟩, length, read⟩

end HelperConfig

end CallbackBridge
