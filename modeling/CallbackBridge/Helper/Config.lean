import CallbackBridge.Text.CString
import CallbackBridge.Text.Decimal

/-! # What a helper is launched with

    The helper program takes its settings as flags in a fixed order.  A
    gateway that is empty is left out together with its flag.

    Settings come in two forms: `HelperConfig` holds texts, `RawHelperConfig`
    holds the strings of a foreign caller, where each may be a null pointer. -/

namespace CallbackBridge

/-! ### Texts -/

/-- The settings of a helper. -/
structure HelperConfig where
  /-- The program. -/
  binaryPath : String
  /-- The descriptor of the tunnel. -/
  tunnelFd : Int32
  /-- The address of the interface. -/
  address : String
  /-- The netmask of the interface. -/
  netmask : String
  /-- The address of the proxy server. -/
  socksServer : String
  /-- The gateway for datagrams; empty for none. -/
  udpGateway : String
  /-- The gateway for names; empty for none. -/
  dnsGateway : String
  deriving DecidableEq, Repr

namespace HelperConfig

/-- Settings with nothing filled in. -/
def blank : HelperConfig := ⟨"", 0, "", "", "", "", ""⟩

/-- A flag and its value, or neither where the value is empty. -/
def optionalFlag (flag value : String) : List String :=
  if value.isEmpty then [] else [flag, value]

/-- The arguments after the program. -/
def arguments (c : HelperConfig) : List String :=
  ["--tunfd", Text.Decimal.ofInt c.tunnelFd.toInt,
   "--netif-ipaddr", c.address,
   "--netif-netmask", c.netmask,
   "--socks-server-addr", c.socksServer]
  ++ optionalFlag "--udpgw-remote-server-addr" c.udpGateway
  ++ optionalFlag "--dnsgw" c.dnsGateway
  ++ ["--loglevel", "notice"]

/-- The program and its arguments. -/
def argv (c : HelperConfig) : List String :=
  c.binaryPath :: c.arguments

/-- The program and its arguments on one line. -/
def commandLine (c : HelperConfig) : String :=
  String.intercalate " " c.argv

end HelperConfig

/-! ### Validation -/

/-- A setting that is a text, or an argument made from one. -/
inductive HelperField where
  | binaryPath
  | address
  | netmask
  | socksServer
  | udpGateway
  | dnsGateway
  | argument
  deriving DecidableEq, Repr

/-- The name of a setting in messages. -/
def HelperField.name : HelperField → String
  | .binaryPath => "binary path"
  | .address => "address"
  | .netmask => "netmask"
  | .socksServer => "socks server"
  | .udpGateway => "udpgw address"
  | .dnsGateway => "dnsgw address"
  | .argument => "argument"

/-- Why a helper was not launched.  The operating system is taken to start one
    whenever it is asked to. -/
inductive LaunchError where
  | emptyBinaryPath
  | interiorNul (field : HelperField)
  deriving DecidableEq, Repr

/-- The text of an error. -/
def LaunchError.message : LaunchError → String
  | .emptyBinaryPath => "helper binary path is empty"
  | .interiorNul field => s!"{field.name} contains an interior NUL byte"

namespace HelperConfig

/-- The texts of the settings, in the order in which they are checked. -/
def texts (c : HelperConfig) : List (HelperField × String) :=
  [(.binaryPath, c.binaryPath), (.address, c.address), (.netmask, c.netmask),
   (.socksServer, c.socksServer), (.udpGateway, c.udpGateway), (.dnsGateway, c.dnsGateway)]

/-- The first fault of the settings, if any. -/
def fault? (c : HelperConfig) : Option LaunchError :=
  if c.binaryPath.isEmpty then some .emptyBinaryPath
  else c.texts.find? (·.2.contains '\x00') |>.map fun (field, _) => .interiorNul field

end HelperConfig

/-! ### Foreign strings -/

/-- Settings as a foreign caller passes them. -/
structure RawHelperConfig where
  binaryPath : Option CString
  tunnelFd : Int32
  address : Option CString
  netmask : Option CString
  socksServer : Option CString
  udpGateway : Option CString
  dnsGateway : Option CString
  deriving DecidableEq

namespace RawHelperConfig

/-- A string that has to be there and be valid UTF-8. -/
def required (value : Option CString) : Option String :=
  value.bind CString.text?

/-- A string that may be null, which reads as empty, or is valid UTF-8. -/
def optional : Option CString → Option String
  | none => some ""
  | some value => value.text?

/-- Copies the settings into texts. -/
def texts? (raw : RawHelperConfig) : Option HelperConfig := do
  let binaryPath ← required raw.binaryPath
  let address ← required raw.address
  let netmask ← required raw.netmask
  let socksServer ← required raw.socksServer
  let udpGateway ← optional raw.udpGateway
  let dnsGateway ← optional raw.dnsGateway
  pure ⟨binaryPath, raw.tunnelFd, address, netmask, socksServer, udpGateway, dnsGateway⟩

end RawHelperConfig

/-- A text with a NUL inside has no foreign form. -/
structure NulError where
  /-- The byte position of the first NUL. -/
  position : Nat
  deriving DecidableEq, Repr

/-- The text of the error. -/
def NulError.message (e : NulError) : String :=
  s!"nul byte found in provided data at position: {e.position}"

/-- The foreign form of a text. -/
def CString.ofTextOrError (text : String) : Except NulError CString :=
  match CString.ofText? text with
  | some s => .ok s
  | none => .error ⟨(CString.nulPosition? text).getD 0⟩

/-- The foreign form of the settings, unless a text holds a NUL. -/
def HelperConfig.toRaw (c : HelperConfig) : Except NulError RawHelperConfig := do
  let binaryPath ← CString.ofTextOrError c.binaryPath
  let address ← CString.ofTextOrError c.address
  let netmask ← CString.ofTextOrError c.netmask
  let socksServer ← CString.ofTextOrError c.socksServer
  let udpGateway ← CString.ofTextOrError c.udpGateway
  let dnsGateway ← CString.ofTextOrError c.dnsGateway
  pure ⟨some binaryPath, c.tunnelFd, some address, some netmask, some socksServer,
    some udpGateway, some dnsGateway⟩

end CallbackBridge
