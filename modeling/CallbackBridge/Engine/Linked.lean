import CallbackBridge.Engine.Callbacks

/-! # The linked engine

    The library below this engine knows handles as pointers and truth values
    as bytes.  It calls back through functions without a context, so the table
    they lead to is kept for the whole process: the first one that is
    installed stays.  Strings are copied on their way down and up; who allocates
    the copies and who frees them is left out. -/

namespace CallbackBridge.LinkedEngine

/-- The pointer that stands for a handle; the null handle is the null
    pointer. -/
def pointer (id : HandleId) : UInt64 := id.raw

/-- A truth value as a byte. -/
def byte (b : Bool) : UInt8 := if b then 1 else 0

/-- Copies a text that the library returned; a null pointer reads as empty. -/
def copyText : Option CString → String
  | none => ""
  | some text => text.lossy

/-- Installs a callback table, unless there is one already. -/
def install (table : CallbackTable) : Operation Unit := do
  let installed ← Operation.modifyGet fun s =>
    match s.libraryTable with
    | some _ => (false, s)
    | none => (true, { s with libraryTable := some table })
  if installed then
    Log.breadcrumb .engine "libclash callbacks installed"
  else
    Log.warn "libclash callbacks already installed; keeping the first table"

/-- Serves a request that comes in through the functions of the library. -/
def serve (q : EngineRequest) : Operation q.Answer := do
  let s ← Operation.state
  match s.libraryTable with
  | none => pure q.unserved
  | some table => table.serve q

/-- Starts the tunnel. -/
def startTunnel (callback : HandleId) (settings : TunnelSettings) : Operation Unit := do
  let started ← Operation.call (.library (.startTunnel (pointer callback) settings))
  let fd := Text.Decimal.ofInt settings.fd.toInt
  Log.breadcrumb .engine
    s!"startTUN(fd={fd}, handle={callback.text}) -> {started.toNat}"

/-- Traffic of the current session. -/
def traffic (onlyProxies : Bool) : Operation String := do
  let text ← Operation.call (.library (.traffic (byte onlyProxies)))
  pure (copyText text)

/-- Traffic since the start. -/
def totalTraffic (onlyProxies : Bool) : Operation String := do
  let text ← Operation.call (.library (.totalTraffic (byte onlyProxies)))
  pure (copyText text)

end CallbackBridge.LinkedEngine
