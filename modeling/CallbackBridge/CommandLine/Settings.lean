import CallbackBridge.Helper.Config
import CallbackBridge.Helper.Monitor

/-! # Settings on the command line

    The command line is a list of flags, each followed by its value.  A value
    is taken as it stands, also when it looks like a flag, and the last value
    of a flag counts.  The error is that of the leftmost flag that is not
    right; that the helper is missing shows only at the end. -/

namespace CallbackBridge.CommandLine

/-- A flag of the command line. -/
inductive Flag where
  | helper
  | tunnelFd
  | address
  | netmask
  | socks
  | udpGateway
  | dnsGateway
  | pollMillis
  deriving DecidableEq, Repr

namespace Flag

/-- Every flag. -/
def all : List Flag :=
  [.helper, .tunnelFd, .address, .netmask, .socks, .udpGateway, .dnsGateway, .pollMillis]

/-- How a flag is written. -/
def text : Flag → String
  | .helper => "--helper"
  | .tunnelFd => "--tun-fd"
  | .address => "--address"
  | .netmask => "--netmask"
  | .socks => "--socks"
  | .udpGateway => "--udpgw"
  | .dnsGateway => "--dnsgw"
  | .pollMillis => "--poll-ms"

/-- What the value of a flag is, for the list of flags in an error. -/
def placeholder : Flag → String
  | .helper => "<path>"
  | .tunnelFd => "<fd>"
  | .address => "<ip>"
  | .netmask => "<mask>"
  | .socks => "<addr>"
  | .udpGateway => "<addr>"
  | .dnsGateway => "<addr>"
  | .pollMillis => "<millis>"

/-- The flag that is written as `text`. -/
def ofText? (text : String) : Option Flag :=
  all.find? (·.text = text)

/-- The list of flags in an error. -/
def usage : String :=
  String.intercalate ", " (all.map fun f => s!"{f.text} {f.placeholder}")

theorem mem_all (f : Flag) : f ∈ all := by
  cases f <;> simp [all]

end Flag

/-- What the command line asks for. -/
structure Settings where
  /-- The helper to launch. -/
  helper : HelperConfig
  /-- Milliseconds between two polls, at least one. -/
  pollMillis : Nat
  deriving DecidableEq, Repr

/-- The settings before any flag is read. -/
def Settings.initial : Settings :=
  ⟨.blank, Monitor.defaultInterval⟩

/-- Why a command line was refused. -/
inductive SettingsError where
  | missingValue (flag : Flag)
  | invalidTunnelFd
  | invalidPollInterval
  | unknownArgument (argument : String)
  | helperRequired
  deriving DecidableEq, Repr

/-- The text of an error. -/
def SettingsError.message : SettingsError → String
  | .missingValue flag => s!"{flag.text} requires a value"
  | .invalidTunnelFd => "invalid tun fd"
  | .invalidPollInterval => "invalid poll interval"
  | .unknownArgument a => s!"unknown argument '{a}'. Supported flags: {Flag.usage}"
  | .helperRequired => "--helper is required"

namespace Settings

/-- Takes over the value of one flag. -/
def set (s : Settings) (flag : Flag) (value : String) : Except SettingsError Settings :=
  match flag with
  | .helper => .ok { s with helper.binaryPath := value }
  | .address => .ok { s with helper.address := value }
  | .netmask => .ok { s with helper.netmask := value }
  | .socks => .ok { s with helper.socksServer := value }
  | .udpGateway => .ok { s with helper.udpGateway := value }
  | .dnsGateway => .ok { s with helper.dnsGateway := value }
  | .tunnelFd =>
    match Text.Decimal.int32? value with
    | some fd => .ok { s with helper.tunnelFd := fd }
    | none => .error .invalidTunnelFd
  | .pollMillis =>
    match Text.Decimal.uint64? value with
    | some millis => .ok { s with pollMillis := max millis.toNat 1 }
    | none => .error .invalidPollInterval

/-- Reads flags and values onto settings. -/
def readOnto (s : Settings) : List String → Except SettingsError Settings
  | [] => .ok s
  | argument :: rest =>
    match Flag.ofText? argument, rest with
    | none, _ => .error (.unknownArgument argument)
    | some flag, [] => .error (.missingValue flag)
    | some flag, value :: rest =>
      match s.set flag value with
      | .ok s => s.readOnto rest
      | .error e => .error e

/-- Reads a command line. -/
def read (arguments : List String) : Except SettingsError Settings := do
  let s ← initial.readOnto arguments
  if s.helper.binaryPath.isEmpty then .error .helperRequired else .ok s

end Settings

end CallbackBridge.CommandLine
