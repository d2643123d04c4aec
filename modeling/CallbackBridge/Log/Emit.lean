import CallbackBridge.Foreign.Progress

/-! # Logging as an operation

    A line goes to the sink that is installed at that moment.  Error lines
    that may repeat pass the limiter first. -/

namespace CallbackBridge.Log

/-- Hands a line to the sink, if one takes it. -/
def emit (level : Level) (b : Breadcrumbs) (message : String) : Operation Unit := do
  let s ← Operation.state
  match s.logger.line? level b message with
  | none => pure ()
  | some line => Operation.call (.log line)

/-- A plain line at `error`. -/
def error (message : String) : Operation Unit :=
  emit .error .plain message

/-- A plain line at `warn`. -/
def warn (message : String) : Operation Unit :=
  emit .warn .plain message

/-- A plain line at `info`. -/
def info (message : String) : Operation Unit :=
  emit .info .plain message

/-- A detailed line with the given breadcrumbs, or nothing without any. -/
def detail (b : Breadcrumbs) (message : String) : Operation Unit :=
  if b.isEmpty then pure () else emit .debug b message

/-- A detailed line of one area. -/
def breadcrumb (a : Area) (message : String) : Operation Unit :=
  detail (.of a) message

/-- An error line that may repeat.  Tells whether the limiter admitted it. -/
def limitedError (c : Category) (text : String) : Operation Bool := do
  let now ← Operation.call (.system .clock)
  let admitted ← Operation.modifyGet fun s =>
    let (admitted, limiter) := s.limiter.offer now c
    (admitted, { s with limiter })
  match admitted with
  | none => pure false
  | some suppressed =>
    error (c.message text suppressed)
    pure true

/-- Installs the sink asked for, or removes the sink. -/
def install (request : Option SinkRequest) (level : Option String) :
    Operation (Except SinkError Unit) :=
  Operation.modifyGet fun s =>
    match s.logger.install request level with
    | .error e => (.error e, s)
    | .ok logger => (.ok (), { s with logger })

/-- Changes the mask of the installed sink. -/
def setMask (mask : UInt32) : Operation Unit :=
  Operation.modify fun s => { s with logger := s.logger.setMask mask }

end CallbackBridge.Log
