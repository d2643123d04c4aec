import CallbackBridge.Dispatch

/-! # What an engine may ask

    An engine calls back through a table of functions.  Handles arrive as
    words that the engine may have made up, and strings may be null pointers,
    which read as empty.  An engine learns of no failure.

    A table whose context is null leads nowhere: requests through it do
    nothing, and a question is answered with the empty string.

    The strings here are known by their bytes.  Where they stand, and that an
    engine gives back the one it was answered with, makes no difference to
    anything that the bridge does. -/

namespace CallbackBridge

/-- A request of an engine. -/
inductive EngineRequest where
  /-- Exclude a descriptor from the tunnel. -/
  | protect (handle : UInt64) (fd : Int32)
  /-- Name the owner of a connection. -/
  | resolveOwner (handle : UInt64) (protocol : Int32) (source target : Option CString)
      (uid : Int32)
  /-- Take the result of an action, or an event. -/
  | onResult (handle : UInt64) (data : Option CString)
  /-- Take back a handle that the engine owned. -/
  | release (handle : UInt64)
  deriving DecidableEq

/-- What a request is answered with. -/
abbrev EngineRequest.Answer : EngineRequest → Type
  | .resolveOwner .. => CString
  | .protect .. | .onResult .. | .release _ => Unit

/-- What a request is answered with where nobody serves it. -/
def EngineRequest.unserved : (q : EngineRequest) → q.Answer
  | .resolveOwner .. => .empty
  | .protect .. | .onResult .. | .release _ => ()

namespace Dispatch

/-- Serves a request of an engine.  The owner that is named becomes a string
    of its own, cut at a NUL. -/
def serve : (q : EngineRequest) → Operation q.Answer
  | .protect handle fd => do
    let _ ← protect ⟨handle⟩ fd
    pure ()
  | .resolveOwner handle protocol source target uid => do
    let owner ← resolveOwner ⟨handle⟩
      ⟨protocol, source.getD .empty, target.getD .empty, uid⟩
    pure (.ofTextCut owner)
  | .onResult handle data => do
    let _ ← deliverResult ⟨handle⟩ (data.getD .empty)
    pure ()
  | .release handle => do
    let _ ← Registry.releaseRaw ⟨handle⟩
    pure ()

end Dispatch

namespace CallbackTable

/-- The table that a bridge hands to its engine. -/
def ofDispatcher : CallbackTable := ⟨true⟩

/-- Serves a request that comes in through the table. -/
def serve (t : CallbackTable) (q : EngineRequest) : Operation q.Answer :=
  if t.connected then Dispatch.serve q else pure q.unserved

end CallbackTable

end CallbackBridge
