/-! # The host's method table

    The application hands the bridge a table with one entry for each kind of
    host call, but for reading a string, which needs none.  All eight have to be
    there; the error names the first that is not, in the order in which the table
    declares them. -/

namespace CallbackBridge

/-- An entry of the method table. -/
inductive HostMethod where
  | attach
  | detach
  | pin
  | unpin
  | protect
  | resolve
  | onResult
  | freeString
  deriving DecidableEq, Repr

namespace HostMethod

/-- Every entry, in the order of declaration. -/
def all : List HostMethod :=
  [.attach, .detach, .pin, .unpin, .protect, .resolve, .onResult, .freeString]

/-- The name of an entry. -/
def name : HostMethod → String
  | .attach => "attach_current_thread"
  | .detach => "detach_current_thread"
  | .pin => "pin_object"
  | .unpin => "unpin_object"
  | .protect => "protect"
  | .resolve => "resolve_process"
  | .onResult => "on_result"
  | .freeString => "free_string"

/-- The entry of a name. -/
def ofName? (name : String) : Option HostMethod :=
  all.find? (·.name = name)

theorem mem_all (m : HostMethod) : m ∈ all := by
  cases m <;> simp [all]

end HostMethod

/-- Why the bridge was not initialised. -/
inductive InitError where
  /-- No method table was given. -/
  | nullMethods
  /-- The method table lacks an entry. -/
  | missingMethod (method : HostMethod)
  /-- The bridge is initialised already. -/
  | alreadyInitialized
  deriving DecidableEq, Repr

namespace InitError

/-- The text of an error. -/
def message : InitError → String
  | .nullMethods => "host vtable pointer is null"
  | .missingMethod m => s!"host method `{m.name}` is not provided"
  | .alreadyInitialized => "bridge is already initialized"

/-- The status that stands for an error outside the bridge. -/
def status : InitError → Int32
  | .nullMethods => -1
  | .missingMethod _ => -2
  | .alreadyInitialized => -3

end InitError

/-- A method table, known by the entries that it lacks. -/
structure HostMethods where
  /-- The entries that are not there. -/
  missing : List HostMethod
  deriving DecidableEq, Repr

namespace HostMethods

/-- The first entry that is not there. -/
def firstMissing? (m : HostMethods) : Option HostMethod :=
  HostMethod.all.find? (· ∈ m.missing)

/-- Checks that every entry is there. -/
def check (m : HostMethods) : Except InitError Unit :=
  match m.firstMissing? with
  | none => .ok ()
  | some method => .error (.missingMethod method)

end HostMethods

end CallbackBridge
