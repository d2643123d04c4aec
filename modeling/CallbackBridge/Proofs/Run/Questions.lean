import CallbackBridge.Proofs.Run.Dispatching
import CallbackBridge.Proofs.Run.Entries

/-! # Questions for an owner

    An engine asks for the owner of a connection by the handle of a tunnel.  The
    host answers with a string of its own, which has to be read where it stands and
    then given back.

    Key ideas:

    1. Which object is asked, if any, is settled as the request begins:
       `Request.inquiry?`.
    2. `Asked` is what an operation is told that asks: the host attaches the
       thread or not, answers or not, lets its answer be read and takes it back.
       Everything else that is called is mute, before and after.
    3. `Named` says which string comes of that, and the plan of every request
       is that it calls as `Asking` has it and answers as `Named` has it. -/

namespace CallbackBridge

variable {α : Type} {thread : Thread} {s : State} {id : HandleId} {o : HostObject}
  {query : OwnerQuery} {found : Option (HostObject × OwnerQuery)}

/-! ### Who is asked what -/

/-- The object behind the handle of a tunnel. -/
def Registry.tunnel? (r : Registry) (id : HandleId) : Option HostObject :=
  if id.isNull then none
  else match r.listed? id with
    | none => none
    | some e => if e.kind = .tunnel then some e.object else none

theorem Registry.listed?_of_tunnel? {r : Registry} (h : r.tunnel? id = some o) :
    id.isNull = false ∧ ∃ e, r.listed? id = some e ∧ e.kind = .tunnel ∧ e.object = o := by
  unfold tunnel? at h
  split at h
  · cases h
  next hn =>
  refine ⟨by simpa using hn, ?_⟩
  split at h
  · cases h
  next e hf =>
  split at h
  · next hk => exact ⟨e, hf, hk, Option.some.inj h⟩
  · cases h

/-- The object that a request asks for an owner, and what it asks. -/
def Request.inquiry? (q : Request) (s : State) : Option (HostObject × OwnerQuery) :=
  match (q.through s.libraryTable).dispatched? with
  | some (.resolveOwner id query) => (s.registry.tunnel? id).map (·, query)
  | _ => none

/-! ### What is said -/

/-- A call that neither asks for an owner nor reads an answer or gives it back. -/
def Call.mute : Call → Bool
  | .host c => c.textless
  | .engine _ | .library _ | .log _ | .system _ => true

theorem Call.mute_of_quiet {c : Call} (h : c.mayReenter = false) : c.mute = true := by
  cases c with
  | log | system => rfl
  | host | engine | library => cases h

theorem Call.mute_of_toEngine {c : Call} (h : c.toEngine = true) : c.mute = true := by
  cases c with
  | engine | library => rfl
  | _ => cases h

/-- What an operation may call that asks what was found, if anything.  It asks
    on an attached thread, reads the answer next of all, and then gives it back. -/
inductive Asking : Option (HostObject × OwnerQuery) → List Exchange → Call → Prop
  | mute {found : Option (HostObject × OwnerQuery)} {told : List Exchange} {call : Call} :
    call.mute = true → Asking found told call
  | asks {o : HostObject} {query : OwnerQuery} {status : Int32} {s : State} {a : AttachState} :
    AttachState.ofStatus status = .ok a →
    Asking (some (o, query)) [⟨.host .attach, status, s⟩] (.host (.resolve o query))
  | reads {o : HostObject} {query : OwnerQuery} {status : Int32} {s s' : State}
    {a : AttachState} {text : HostString} :
    AttachState.ofStatus status = .ok a →
    Asking (some (o, query)) [⟨.host (.resolve o query), some text, s'⟩,
      ⟨.host .attach, status, s⟩] (.host (.readString text))
  | givesBack {o : HostObject} {query : OwnerQuery} {status : Int32} {s s' s'' : State}
    {a : AttachState} {text : HostString} {copy : CString} :
    AttachState.ofStatus status = .ok a →
    Asking (some (o, query)) [⟨.host (.readString text), copy, s''⟩,
      ⟨.host (.resolve o query), some text, s'⟩, ⟨.host .attach, status, s⟩]
      (.host (.freeString text))

theorem Asking.of_resolve {told : List Exchange}
    (h : Asking found told (.host (.resolve o query))) : found = some (o, query) := by
  cases h with
  | mute hm => cases hm
  | asks => rfl

theorem Asking.of_readString {told : List Exchange} {text : HostString}
    (h : Asking found told (.host (.readString text))) : ∃ o query status s s', told =
      [⟨.host (.resolve o query), some text, s'⟩, ⟨.host .attach, status, s⟩] := by
  cases h with
  | mute hm => cases hm
  | reads => exact ⟨_, _, _, _, _, rfl⟩

/-- What an operation is told that asks `o`, up to the end of the answer. -/
inductive Asked (o : HostObject) (query : OwnerQuery) :
    List Exchange → Except AttachError (Option CString) → Prop
  | refused {status : Int32} {s : State} {e : AttachError} :
    AttachState.ofStatus status = .error e →
    Asked o query [⟨.host .attach, status, s⟩] (.error e)
  | unanswered {status : Int32} {s s' : State} {a : AttachState} :
    AttachState.ofStatus status = .ok a →
    Asked o query [⟨.host (.resolve o query), none, s'⟩, ⟨.host .attach, status, s⟩] (.ok none)
  | answered {status : Int32} {s s₁ s₂ s₃ : State} {a : AttachState} {text : HostString}
    {copy : CString} :
    AttachState.ofStatus status = .ok a →
    Asked o query [⟨.host (.freeString text), (), s₃⟩, ⟨.host (.readString text), copy, s₂⟩,
      ⟨.host (.resolve o query), some text, s₁⟩, ⟨.host .attach, status, s⟩] (.ok (some copy))

/-- The string that an answer stands for: its own bytes where they are valid
    UTF-8, and none otherwise. -/
inductive Reads : Except AttachError (Option CString) → CString → Prop
  | refused {e : AttachError} : Reads (.error e) .empty
  | unanswered : Reads (.ok none) .empty
  | garbled {text : CString} :
    (∀ owner : String, owner.toUTF8 ≠ text.bytes) → Reads (.ok (some text)) .empty
  | answered {text : CString} {owner : String} :
    owner.toUTF8 = text.bytes → Reads (.ok (some text)) text

/-- How an operation that asks what was found names an owner, after all it was
    told. -/
inductive Named : Option (HostObject × OwnerQuery) → List Exchange → CString → Prop
  | unknown {told : List Exchange} : (∀ x ∈ told, x.call.mute = true) → Named none told .empty
  | known {o : HostObject} {query : OwnerQuery} {asked more : List Exchange}
    {answer : Except AttachError (Option CString)} {name : CString} :
    Asked o query asked answer → Reads answer name → (∀ x ∈ more, x.call.mute = true) →
    Named (some (o, query)) (more ++ asked) name

/-- The owner that is named after an answer. -/
def heard : Except AttachError (Option CString) → String
  | .ok (some text) => text.text?.getD ""
  | .ok none | .error _ => ""

theorem CString.toUTF8_empty : ("" : String).toUTF8 = CString.empty.bytes := rfl

/-- The owner that is named is the answer, or empty. -/
theorem exists_reads (answer : Except AttachError (Option CString)) :
    ∃ name, Reads answer name ∧ (heard answer).toUTF8 = name.bytes := by
  match answer with
  | .error e => exact ⟨.empty, .refused, CString.toUTF8_empty⟩
  | .ok none => exact ⟨.empty, .unanswered, CString.toUTF8_empty⟩
  | .ok (some text) =>
    cases ht : text.text? with
    | some owner =>
      have same : owner.toUTF8 = text.bytes := Text.Utf8.toUTF8_of_decode? ht
      refine ⟨text, .answered same, ?_⟩
      simp only [heard, ht, Option.getD_some, same]
    | none =>
      have garbled : ∀ owner : String, owner.toUTF8 ≠ text.bytes := by
        intro owner same
        rw [CString.text?, ← same, Text.Utf8.decode?_toUTF8] at ht
        cases ht
      refine ⟨.empty, .garbled garbled, ?_⟩
      simp only [heard, ht, Option.getD_none, CString.toUTF8_empty]

/-- A string without NUL is handed over whole. -/
theorem CString.ofTextCut_eq {owner : String} {name : CString} (h : owner.toUTF8 = name.bytes) :
    ofTextCut owner = name := by
  rw [ofTextCut, h, ofBytes_bytes]

/-! ### Mute operations -/

/-- `Φ` does not look at the state, nor at calls that are mute. -/
structure MuteParts (Φ : {α : Type} → Operation α → Prop) : Prop extends Basics Φ where
  change : ∀ {α : Type} {f : State → α × State}, Φ (Operation.modifyGet f)
  call : ∀ {c : Call}, c.mute = true → Φ (Operation.call c)

namespace MuteParts

variable {Φ : {α : Type} → Operation α → Prop}

theorem toPlainParts (hp : MuteParts Φ) : PlainParts Φ :=
  hp.toBasics.plainParts (fun hc => hp.call hc) fun _ => hp.change

theorem bump (hp : MuteParts Φ) {k : Counter} : Φ (CallbackBridge.bump k) :=
  hp.change (f := fun s => ((), { s with counters := s.counters.bump k }))

theorem toCallerParts (hp : MuteParts Φ) : CallerParts Φ where
  toBasics := hp.toBasics
  register := hp.toPlainParts.register hp.change
  releaseRaw := hp.toPlainParts.releaseRaw hp.change hp.bump
  dispatch := hp.toPlainParts.toDispatchParts.dispatch
  launched := hp.bump
  engine hc _ := hp.call (Call.mute_of_toEngine hc)
  calls hc := hp.call (Call.mute_of_toEngine hc)
  releaseIfPresent := hp.toPlainParts.releaseIfPresent hp.change
  slot _ := hp.change
  logger _ := hp.change
  limit _ := hp.change

theorem registry (hp : MuteParts Φ) (r : RegistryRequest) : Φ r.operation := by
  have plain := hp.toPlainParts
  cases r with
  | register => exact plain.register hp.change
  | look => exact plain.look
  | giveBack => exact plain.giveBack
  | release => exact hp.toBasics.release (plain.remove hp.change hp.bump)
  | releaseRaw => exact plain.releaseRaw hp.change hp.bump
  | releaseIfPresent => exact plain.releaseIfPresent hp.change
  | close => exact plain.close hp.change

/-- Every request, where those for an owner are told apart. -/
theorem request (hp : MuteParts Φ) {q : Request} (ask : q.asks = true → Φ q.operation) :
    Φ q.operation := by
  refine hp.toCallerParts.request (fun r _ => hp.registry r) ask fun hi => ?_
  cases q with
  | entry q =>
    cases q with
    | init => exact hp.toBasics.init hp.change
    | _ => cases hi
  | _ => cases hi

end MuteParts

open Operation

/-- What only makes mute calls. -/
theorem muteParts :
    MuteParts (fun m => m.Makes (·.mute = true) fun _ => True) where
  pure _ := .pure trivial
  bind hm hf := .bind hm fun a _ => hf a
  state := .state
  thread := .readThread
  tell hc := .call (Call.mute_of_quiet hc)
  change := .modifyGet
  call hc := .call hc

theorem muteParts_drop {g : AttachGuard} : g.drop.Makes (·.mute = true) fun _ => True :=
  muteParts.toBasics.drop (.call rfl)

/-! ### Plans -/

/-- Whoever found something asks, and what comes of it is as `post` says. -/
def Plan.question (o : HostObject) (query : OwnerQuery)
    (post : Except AttachError (Option CString) → α → Prop) : Plan α where
  calls told call _ := Asking (some (o, query)) told call
  ends told a _ := ∃ more asked answer, told = more ++ asked ∧ Asked o query asked answer ∧
    (∀ x ∈ more, x.call.mute = true) ∧ post answer a

/-- Whoever asks names an owner, which a result is to state. -/
def Plan.inquiry (found : Option (HostObject × OwnerQuery)) (states : α → CString → Prop) :
    Plan α where
  calls told call _ := Asking found told call
  ends told a _ := ∃ name, Named found told name ∧ states a name

/-- After the answer only mute calls are made. -/
theorem Asked.follows {m : Operation α} {asked : List Exchange}
    {answer : Except AttachError (Option CString)}
    {post : Except AttachError (Option CString) → α → Prop} (ha : Asked o query asked answer)
    (hm : m.Makes (·.mute = true) (post answer)) :
    (m thread s).Follows (.question o query post) asked := by
  apply (hm thread s asked).mono
  · rintro _ call _ ⟨-, hc⟩
    exact .mute hc
  · rintro _ a _ ⟨⟨more, rfl, hmore⟩, hp⟩
    exact ⟨more, asked, answer, rfl, ha, hmore, hp⟩

/-- Mute calls may follow. -/
theorem Progress.Follows.after_question {β : Type} {p : Progress α} {f : α → Operation β}
    {post : Except AttachError (Option CString) → α → Prop}
    {post' : Except AttachError (Option CString) → β → Prop} {told : List Exchange}
    (hp : p.Follows (.question o query post) told)
    (hf : ∀ a, (f a).Makes (·.mute = true) fun b => ∀ answer, post answer a → post' answer b) :
    (p.bind fun a s => f a thread s).Follows (.question o query post') told := by
  refine Progress.Follows.bind (hp.mono (fun _ _ _ h => h) ?_)
  rintro _ a s ⟨more, asked, answer, rfl, hasked, hmore, ha⟩
  apply (hf a thread s _).mono
  · rintro _ call _ ⟨-, hc⟩
    exact .mute hc
  · rintro _ b _ ⟨⟨later, rfl, hlater⟩, hb⟩
    refine ⟨later ++ more, asked, answer, (List.append_assoc ..).symm, hasked, ?_, hb answer ha⟩
    exact fun x hx => (List.mem_append.mp hx).elim (hlater x) (hmore x)

namespace Dispatch

/-! ### The dispatcher -/

/-- The question is put on a thread that the host attached. -/
theorem onHostThread_question {policy : DetachPolicy} :
    (onHostThread policy (askOwner o query) thread s).Follows
      (.question o query fun answer r => r = answer.map (·.bind CString.text?)) [] := by
  apply onHostThread_follows
  case attach => exact .mute rfl
  case refused =>
    intro status s₁ e ha
    exact ⟨[], _, .error e, rfl, .refused ha, by simp, rfl⟩
  case quiet => exact fun _ _ _ _ hq => .mute (Call.mute_of_quiet hq)
  case goesOn =>
    intro status s₁ a ha g
    have ends : ∀ owner, (do
        g.drop
        pure (.ok owner) : Operation (Except AttachError (Option String))).Makes (·.mute = true)
          (· = .ok owner) := fun owner => .bind muteParts_drop fun _ _ => .pure rfl
    refine ⟨.asks ha, fun answer s₃ _ => ?_⟩
    cases answer with
    | none => exact (Asked.unanswered ha).follows (ends none)
    | some text =>
      -- the string is given back before the thread may be detached
      refine ⟨.reads ha, fun copy s₄ _ => ⟨.givesBack ha, fun _ s₅ _ => ?_⟩⟩
      exact (Asked.answered ha).follows (ends copy.text?)

/-- How an answer is reported inside the dispatcher. -/
def Reported (answer : Except AttachError (Option CString))
    (r : Except DispatchError (Option String)) : Prop :=
  match answer with
  | .error e => r = .error (.attach e)
  | .ok text => r = .ok (text.bind CString.text?)

theorem attached_question :
    (attached (askOwner o query) thread s).Follows (.question o query Reported) [] := by
  apply onHostThread_question.after_question
  intro r
  cases r with
  | ok owner =>
    refine .pure fun answer h => ?_
    cases answer with
    | error e => cases h
    | ok text =>
      cases h
      rfl
  | error e =>
    refine .bind muteParts.bump fun _ _ => .pure fun answer h => ?_
    cases answer with
    | error e =>
      cases h
      rfl
    | ok text => cases h

theorem withTarget_known (h : s.registry.tunnel? id = some o)
    {post : Except AttachError (Option CString) → Except DispatchError α → Prop}
    {body : Registration → Operation (Except DispatchError α)}
    (hb : ∀ e s', e.object = o → (body e thread s').Follows (.question o query post) []) :
    (withTarget .query id body thread s).Follows (.question o query post) [] := by
  obtain ⟨hn, e, hf, hk, ho⟩ := Registry.listed?_of_tunnel? h
  have takes : CallShape.query.accepts e.kind = true := by rw [hk]; rfl
  rw [withTarget_listed hn hf takes]
  refine (hb e _ ho).after_question fun r => ?_
  exact .bind muteParts.toPlainParts.giveBack fun _ _ => .pure fun _ h => h

/-- Nobody is asked without the handle of a tunnel. -/
theorem withTarget_unknown (h : s.registry.tunnel? id = none)
    {body : Registration → Operation (Except DispatchError α)} :
    (withTarget .query id body thread s).Follows
      (.within (·.mute = true) [] fun r => ∃ err, r = .error err) [] := by
  unfold Registry.tunnel? at h
  split at h
  · next hn =>
    rw [withTarget_null hn]
    exact ⟨.refl [], _, rfl⟩
  next hn =>
  have known : id.isNull = false := by simpa using hn
  split at h
  · next hf =>
    rw [withTarget_released known hf]
    exact ⟨.refl [], _, rfl⟩
  next e hf =>
  split at h
  · cases h
  next hk =>
  have other : CallShape.query.accepts e.kind = false := by
    cases he : e.kind with
    | tunnel => exact absurd he hk
    | invoke | listener => rfl
  rw [withTarget_wrongKind known hf other]
  have gives : (do
      Registry.giveBack id
      pure (.error (.handle (.wrongKind id e.kind))) : Operation (Except DispatchError α)).Makes
        (·.mute = true) fun r => ∃ err, r = .error err :=
    .bind muteParts.toPlainParts.giveBack fun _ _ => .pure ⟨_, rfl⟩
  exact gives thread _ []

/-- The owner that a question ends with. -/
def concluded : Except DispatchError (Option String) → String
  | .ok (some owner) => owner
  | .ok none | .error _ => ""

theorem Reported.concluded_eq {answer : Except AttachError (Option CString)}
    {r : Except DispatchError (Option String)} (h : Reported answer r) :
    concluded r = heard answer := by
  cases answer with
  | error e =>
    obtain rfl : r = .error (.attach e) := h
    rfl
  | ok answer =>
    obtain rfl : r = .ok (answer.bind CString.text?) := h
    cases answer with
    | none => rfl
    | some text =>
      simp only [Option.bind_some, heard]
      cases text.text? <;> rfl

/-- How a question went is counted and logged. -/
def conclude (id : HandleId) (query : OwnerQuery) :
    Except DispatchError (Option String) → Operation String
  | .ok (some owner) => do
    bump .callbacksDispatched
    pure owner
  | .ok none => do
    bump .callbacksDispatched
    let uid := Text.Decimal.ofInt query.uid.toInt
    let _ ← Log.limitedError .queryFailure
      s!"resolve_process on {id.text}: host had no owner for uid {uid}"
    pure ""
  | .error e => do
    reportDrop .query id e
    pure ""

theorem resolveOwner_eq : resolveOwner id query = withTarget .query id (fun target =>
    attached (askOwner target.object query)) >>= conclude id query := by
  refine congrArg (withTarget .query id _ >>= ·) ?_
  funext r
  rcases r with e | (_ | owner) <;> rfl

theorem conclude_makes {r : Except DispatchError (Option String)} :
    (conclude id query r).Makes (·.mute = true) (· = concluded r) := by
  have dispatching := muteParts.toPlainParts.toDispatchParts
  rcases r with e | (_ | owner)
  · exact .bind dispatching.reportDrop fun _ _ => .pure rfl
  · exact .bind muteParts.bump fun _ _ => .bind dispatching.limitedError fun _ _ => .pure rfl
  · exact .bind muteParts.bump fun _ _ => .pure rfl

theorem resolveOwner_follows :
    (resolveOwner id query thread s).Follows (.inquiry ((s.registry.tunnel? id).map (·, query))
      fun owner name => owner.toUTF8 = name.bytes) [] := by
  cases ht : s.registry.tunnel? id with
  | none =>
    have drops : (resolveOwner id query thread s).Follows
        (.within (·.mute = true) [] (· = "")) [] := by
      rw [resolveOwner_eq]
      apply Makes.after (withTarget_unknown ht)
      rintro _ ⟨err, rfl⟩
      exact conclude_makes
    apply drops.mono
    · rintro _ call _ ⟨-, hc⟩
      exact .mute hc
    · rintro _ _ _ ⟨⟨more, rfl, hmore⟩, rfl⟩
      exact ⟨.empty, .unknown (by simpa using hmore), CString.toUTF8_empty⟩
  | some o =>
    have asks : (resolveOwner id query thread s).Follows
        (.question o query fun answer owner => owner = heard answer) [] := by
      have target : (withTarget .query id (fun target =>
          attached (askOwner target.object query)) thread s).Follows
            (.question o query Reported) [] :=
        withTarget_known ht fun e s' he => by rw [he]; exact attached_question
      rw [resolveOwner_eq]
      exact target.after_question fun r =>
        conclude_makes.imp fun owner ho answer h => ho.trans h.concluded_eq
    refine asks.mono (fun _ _ _ h => h) ?_
    rintro _ owner _ ⟨more, asked, answer, rfl, hasked, hmore, rfl⟩
    obtain ⟨name, reads, same⟩ := exists_reads answer
    exact ⟨name, .known hasked reads hmore, same⟩

end Dispatch

/-! ### Requests -/

namespace Request

/-- A result states a name: as a text to the dispatcher's caller, and as a
    string to an engine. -/
def States : (q : Request) → q.Result → CString → Prop
  | .dispatch (.resolveOwner ..), owner, name => owner.toUTF8 = name.bytes
  | .callback _ (.resolveOwner ..), answer, name => answer = name
  | .library (.resolveOwner ..), answer, name => answer = name
  | _, _, _ => True

theorem serve_follows_inquiry {table : CallbackTable} {q : EngineRequest} (hq : q.asks = true) :
    (table.serve q thread s).Follows
      (.inquiry ((Request.callback table q).inquiry? s) (States (.callback table q))) [] := by
  cases q with
  | resolveOwner handle protocol source target uid =>
    unfold CallbackTable.serve
    split
    · next hc =>
      have inquiry_eq : (Request.callback table
          (.resolveOwner handle protocol source target uid)).inquiry? s =
          (s.registry.tunnel? ⟨handle⟩).map
            (·, ⟨protocol, source.getD .empty, target.getD .empty, uid⟩) := by
        simp [inquiry?, through, dispatched?, hc]
      rw [inquiry_eq]
      refine Progress.Follows.bind (Dispatch.resolveOwner_follows.mono (fun _ _ _ h => h) ?_)
      rintro told owner _ ⟨name, named, same⟩
      exact ⟨name, named, CString.ofTextCut_eq same⟩
    · next hc =>
      have inquiry_eq : (Request.callback table
          (.resolveOwner handle protocol source target uid)).inquiry? s = none := by
        simp [inquiry?, through, dispatched?, hc]
      rw [inquiry_eq]
      exact ⟨.empty, .unknown (by simp), rfl⟩
  | _ => cases hq

/-- Whoever is to ask for an owner asks and answers as planned. -/
theorem follows_inquiry {q : Request} (hq : q.asks = true) :
    (q.operation thread s).Follows (.inquiry (q.inquiry? s) q.States) [] := by
  cases q with
  | dispatch d =>
    cases d with
    | resolveOwner => exact Dispatch.resolveOwner_follows
    | _ => cases hq
  | callback table q => exact serve_follows_inquiry hq
  | library q =>
    show (LinkedEngine.serve q thread s).Follows _ []
    rw [LinkedEngine.serve_eq]
    have served := @serve_follows_inquiry thread s (s.libraryTable.getD ⟨false⟩) q hq
    cases q with
    | resolveOwner => exact served
    | _ => cases hq
  | _ => cases hq

/-- Nobody else asks. -/
theorem follows_asking (q : Request) : (q.operation thread s).Follows
    ⟨fun told call _ => Asking (q.inquiry? s) told call, fun _ _ _ => True⟩ [] := by
  cases hq : q.asks with
  | true => exact (follows_inquiry hq).mono (fun _ _ _ h => h) fun _ _ _ _ => trivial
  | false =>
    have mute : q.operation.Makes (·.mute = true) fun _ => True :=
      muteParts.request fun ha => by simp [hq] at ha
    apply (mute thread s []).mono
    · rintro _ call _ ⟨-, hc⟩
      exact .mute hc
    · exact fun _ _ _ _ => trivial

end Request

end CallbackBridge
