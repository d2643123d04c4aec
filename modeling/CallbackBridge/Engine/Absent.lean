import CallbackBridge.Engine.Callbacks

/-! # The stand-in for an engine

    Where no engine is linked, calls are accepted and ignored.  The callback
    of an action still gets its one, empty, result, and every handle is given
    back at once, so nothing piles up.  The stand-in has its callback table
    from the moment the bridge is created. -/

namespace CallbackBridge.AbsentEngine

/-- Gives a handle back. -/
def discard (id : HandleId) (operation : String) : Operation Unit := do
  Log.breadcrumb .engine s!"{operation}: no engine linked, releasing {id.text}"
  CallbackTable.ofDispatcher.serve (.release id.raw)

/-- Starts nothing. -/
def startTunnel (callback : HandleId) : Operation Unit :=
  discard callback "start_tun"

/-- Answers an action with the empty string. -/
def invokeAction (callback : HandleId) : Operation Unit := do
  CallbackTable.ofDispatcher.serve (.onResult callback.raw (some .empty))
  discard callback "invoke_action"

end CallbackBridge.AbsentEngine
