import CallbackBridge.Proofs.Pins
import CallbackBridge.Proofs.Run.Cues
import CallbackBridge.Proofs.Run.Lending
import CallbackBridge.Proofs.Run.Questions
import CallbackBridge.Proofs.Run.Registering

/-! # Owners of connections

    The host names an owner with a string of its own, which the bridge reads where
    it stands and gives back; the engine gets a string that the bridge made.

    Key ideas:

    1. The string for the engine is what was read, if the host answered and that is
       valid UTF-8, and empty whatever else happens.  No owner that is named
       needs more than the cut at its first NUL, so there is always a string.
    2. To be answered with a string is what prompts an operation to read it, and
       to have read it is what prompts it to give it back; nothing else prompts
       either.  So both happen in the very next moment, and once.
    3. Other threads may use the bridge while a string is read.  So what was
       answered was given back, but for the strings that are being read.
    4. The loan of the object that is asked lasts longer than that. -/

namespace CallbackBridge

open Run

/-! ### Handing a text over -/

namespace CString

/-- The string of some bytes, unless they hold a NUL. -/
def ofBytes? (bytes : ByteArray) : Option CString :=
  if h : 0 ∈ bytes.data then none else some ⟨bytes, h⟩

/-- A pointer to a string for `text`.  Where there is a NUL, what is before it is
    tried; if that failed too, the pointer would be null. -/
def pointer? (text : String) : Option CString :=
  match ofBytes? text.toUTF8 with
  | some s => some s
  | none => (nulPosition? text).bind fun n => ofBytes? (text.toUTF8.extract 0 n)

theorem ofBytes?_bytes (s : CString) : ofBytes? s.bytes = some s :=
  dif_neg s.noNul

/-- What is before the first NUL is what is left of a text that is cut there. -/
theorem extract_nulPosition? {text : String} {n : Nat} (h : nulPosition? text = some n) :
    text.toUTF8.extract 0 n = (ofTextCut text).bytes := by
  obtain ⟨-, rfl⟩ := List.findIdx?_eq_some_iff_findIdx_eq.mp h
  have before : text.toUTF8.data.toList.takeWhile (· != 0) =
      text.toUTF8.data.toList.take (text.toUTF8.data.toList.findIdx (· == 0)) := by
    rw [List.takeWhile_eq_take_findIdx_not]
    congr 2
    funext b
    exact Bool.not_not (b == 0)
  apply ByteArray.ext
  apply Array.ext'
  simp only [ByteArray.data_extract, Array.toList_extract, List.extract_eq_take_drop,
    List.drop_zero, Nat.sub_zero, ofTextCut, ofBytes, before]

/-- The pointer is never null. -/
theorem pointer?_eq (text : String) : pointer? text = some (.ofTextCut text) := by
  unfold pointer?
  by_cases h : 0 ∈ text.toUTF8.data
  · have refused : ofBytes? text.toUTF8 = none := dif_pos h
    obtain ⟨n, hn⟩ : ∃ n, nulPosition? text = some n := by
      refine Option.ne_none_iff_exists'.mp fun none => ?_
      have := List.findIdx?_eq_none_iff.mp none 0 (by simpa using h)
      simp at this
    rw [refused, hn]
    simp only [Option.bind_some, extract_nulPosition? hn, ofBytes?_bytes]
  · have whole : ofTextCut text = ⟨text.toUTF8, h⟩ := ext (bytes_ofBytes h)
    rw [whole, ofBytes?, dif_neg h]

end CString

/-- What an engine gets for a question: the pointer to an owner's name. -/
def CallbackTable.pointOwner (t : CallbackTable) (handle : UInt64) (protocol : Int32)
    (source target : Option CString) (uid : Int32) : Operation (Option CString) := do
  let owner ←
    if t.connected then
      Dispatch.resolveOwner ⟨handle⟩ ⟨protocol, source.getD .empty, target.getD .empty, uid⟩
    else
      pure ""
  pure (CString.pointer? owner)

/-- An engine always gets a string. -/
theorem CallbackTable.pointOwner_eq (t : CallbackTable) (handle : UInt64) (protocol : Int32)
    (source target : Option CString) (uid : Int32) :
    t.pointOwner handle protocol source target uid =
      some <$> t.serve (.resolveOwner handle protocol source target uid) := by
  unfold pointOwner serve
  split
  · simp only [Dispatch.serve, CString.pointer?_eq, map_bind, map_pure]
  · have nobody : CString.ofTextCut "" = .empty := CString.ofTextCut_eq rfl
    simp only [pure_bind, CString.pointer?_eq, nobody, map_pure]
    rfl

/-! ### Answers that are given back -/

/-- What an operation does about a string of the host's. -/
inductive Handling where
  /-- It copies the string from where it stands. -/
  | reads (text : HostString)
  /-- It gives the string back. -/
  | frees (text : HostString)
  deriving DecidableEq

namespace Handling

/-- The string that an operation reads. -/
def read? : Nat × Handling → Option (Nat × HostString)
  | (op, reads text) => some (op, text)
  | (_, frees _) => none

/-- The string that an operation gives back. -/
def freed? : Nat × Handling → Option (Nat × HostString)
  | (_, reads _) => none
  | (op, frees text) => some (op, text)

end Handling

/-- What a call does about a string of the host's. -/
def Call.handling? : Call → Option Handling
  | .host (.readString text) => some (.reads text)
  | .host (.freeString text) => some (.frees text)
  | _ => none

/-- What an operation has to do about a string of the host's: it reads what it was
    answered with, and gives back what it has read. -/
def Cue.due? : Cue → Option Handling
  | .told ⟨.host (.resolve ..), answer, _⟩ => answer.map .reads
  | .told ⟨.host (.readString text), _, _⟩ => some (.frees text)
  | _ => none

theorem Call.handling?_of_mute {c : Call} (hc : c.mute = true) : c.handling? = none := by
  cases c with
  | host c => cases c <;> first | rfl | cases hc
  | _ => rfl

theorem Cue.due?_of_mute {c : Call} (hc : c.mute = true) {reply : c.Reply} {s : State} :
    (Cue.told ⟨c, reply, s⟩).due? = none := by
  cases c with
  | host c => cases c <;> first | rfl | cases hc
  | _ => rfl

/-- Whoever has something to do about a string does that, and nothing else
    before. -/
def givingBack : Habit where
  between cue _ := cue.due? = none
  calls cue call _ := cue.due? = call.handling?

theorem givingBack_parts : MuteParts (fun m => givingBack.Of m) where
  pure := .pure
  bind := .bind
  state := .state
  thread := .thread
  tell hc := .call (fun _ _ h => h.trans (Call.handling?_of_mute (Call.mute_of_quiet hc)).symm)
    fun _ _ _ _ _ _ => Cue.due?_of_mute (Call.mute_of_quiet hc)
  change := .modifyGet fun _ _ h => h
  call hc := .call (fun _ _ h => h.trans (Call.handling?_of_mute hc).symm)
    fun _ _ _ _ _ _ => Cue.due?_of_mute hc

theorem givingBack_askOwner {o : HostObject} {query : OwnerQuery} :
    givingBack.Of (Dispatch.askOwner o query) := by
  intro thread s cue h
  refine ⟨h, fun answer s₁ _ => ?_⟩
  cases answer with
  | none => exact rfl
  | some text => exact ⟨rfl, fun copy s₂ _ => ⟨rfl, fun _ _ _ => rfl⟩⟩

theorem givingBack_of (q : Request) : givingBack.Of q.operation := by
  have parts : Parts (fun m => givingBack.Of m) := {
    givingBack_parts.toPlainParts with
    ask := givingBack_parts.toBasics.visit (givingBack_parts.call rfl) (givingBack_parts.call rfl)
      givingBack_askOwner }
  exact givingBack_parts.request (givingBack_parts.toBasics.asked parts.resolveOwner)

namespace Run

open History

variable {root : State} {c : Situation}

namespace History

/-- What an operation does about a string of the host's at an event. -/
def handling? : Event → Option (Nat × Handling)
  | .calls op _ call => call.handling?.map (op, ·)
  | _ => none

/-- What an operation has to do next after an event, if that is about a string of
    the host's. -/
def due? : Event → Option (Nat × Handling)
  | .replies op _ (.host (.resolve ..)) answer _ => answer.map fun text => (op, .reads text)
  | .replies op _ (.host (.readString text)) _ _ => some (op, .frees text)
  | _ => none

/-- A string is read exactly in the moment after it was answered, and given back
    exactly in the moment after it was read. -/
def GivesBack (m : Moment) (before : History) : Prop :=
  handling? m.event = before.head?.bind (due? ·.event)

/-- The string that an operation is answered with at an event. -/
def answered? : Event → Option (Nat × HostString)
  | .replies op _ (.host (.resolve ..)) answer _ => answer.map (op, ·)
  | _ => none

/-- The string that an operation gives back at an event. -/
def freed? : Event → Option (Nat × HostString)
  | .calls op _ (.host (.freeString text)) => some (op, text)
  | _ => none

/-- Every string that the host answered with, newest first. -/
def answeredTexts (h : History) : List (Nat × HostString) :=
  h.filterMap (answered? ·.event)

/-- Every string that was given back, newest first. -/
def freedTexts (h : History) : List (Nat × HostString) :=
  h.filterMap (freed? ·.event)

/-- What was done about strings, newest first. -/
def handlings (h : History) : List (Nat × Handling) :=
  h.filterMap (handling? ·.event)

/-- What was to be done about strings, newest first. -/
def dues (h : History) : List (Nat × Handling) :=
  h.filterMap (due? ·.event)

theorem due?_reply {op : Nat} {thread : Thread} {call : Call} {reply : call.Reply}
    {lost : Option HostObject} {s : State} :
    due? (.replies op thread call reply lost) =
      (Cue.told ⟨call, reply, s⟩).due?.map (op, ·) := by
  cases call with
  | host call =>
    cases call with
    | resolve => cases reply <;> rfl
    | _ => rfl
  | _ => rfl

theorem due?_of_cue? {h : History} {op : Nat} {thread : Thread} {cue : Cue}
    (hc : h.cue? = some (op, thread, cue)) :
    h.head?.bind (due? ·.event) = cue.due?.map (op, ·) := by
  unfold cue? at hc
  split at hc
  · cases hc
    rfl
  · cases hc
    exact due?_reply
  · cases hc

theorem due?_of_idle {h : History} (hc : h.cue? = none) :
    h.head?.bind (due? ·.event) = none := by
  cases h with
  | nil => rfl
  | cons m before =>
    obtain ⟨e, s⟩ := m
    cases e with
    | begins | replies => cases hc
    | calls | ends => rfl

theorem GivesBack.of_prompted {m : Moment} {before : History}
    (hp : Prompted (fun q => givingBack.manner q.Result) root m before) : GivesBack m before := by
  obtain ⟨e, s⟩ := m
  unfold GivesBack
  cases e with
  | begins | replies => exact (due?_of_idle hp.1).symm
  | calls op thread call =>
    obtain ⟨cue, q, s₀, hc, -, due⟩ := hp
    have due : cue.due? = call.handling? := due
    rw [due?_of_cue? hc, due]
    rfl
  | ends op thread q result =>
    obtain ⟨cue, s₀, hc, -, due⟩ := hp
    have due : cue.due? = none := due
    rw [due?_of_cue? hc, due]
    rfl

/-- What was to be done was done, but for what is to be done just now. -/
theorem dues_eq {h : History} (hg : h.Always GivesBack) :
    dues h = (h.head?.bind (due? ·.event)).toList ++ handlings h := by
  induction h with
  | nil => rfl
  | cons m before ih =>
    obtain ⟨here, always⟩ := hg
    have split : ∀ f : Event → Option (Nat × Handling),
        (m :: before).filterMap (f ·.event) =
          (f m.event).toList ++ before.filterMap (f ·.event) := fun f => by
      cases hf : f m.event <;> simp [hf]
    calc dues (m :: before)
        = (due? m.event).toList ++ dues before := split due?
      _ = (due? m.event).toList ++ ((handling? m.event).toList ++ handlings before) := by
          rw [ih always, here]
      _ = (due? m.event).toList ++ handlings (m :: before) :=
          congrArg ((due? m.event).toList ++ ·) (split handling?).symm

end History

/-- Wherever the outside world may move, all that was to be done about strings was
    done. -/
theorem Reaches.gives_back (run : Reaches (.initial root) c) :
    c.history.Always GivesBack ∧ c.history.dues = c.history.handlings := by
  have prompt := run.prompt (μ := fun q => givingBack.manner q.Result) fun q thread s =>
    givingBack_of q thread s _ rfl
  have gives : c.history.Always GivesBack :=
    Always.imp (fun _ _ => GivesBack.of_prompted) prompt.always
  refine ⟨gives, ?_⟩
  rw [dues_eq gives, due?_of_idle prompt.idle]
  rfl

/-! ### Calls that are waited in -/

namespace History

/-- The call that an operation makes at an event. -/
def call? : Event → Option (Nat × Call)
  | .calls op _ call => some (op, call)
  | _ => none

/-- The call that is replied to at an event. -/
def repliedCall? : Event → Option (Nat × Call)
  | .replies op _ call _ _ => some (op, call)
  | _ => none

/-- Every call that was made, newest first. -/
def called (h : History) : List (Nat × Call) :=
  h.filterMap (call? ·.event)

/-- Every call that was replied to, newest first. -/
def replied (h : History) : List (Nat × Call) :=
  h.filterMap (repliedCall? ·.event)

end History

/-- The calls that operations wait in. -/
def Situation.waiting (c : Situation) : List (Nat × Call) :=
  c.stack.map fun f => (f.op, f.call)

theorem Situation.proceed_settled {op : Nat} {thread : Thread} {q : Request}
    {p : Progress q.Result} (h : (c.waiting ++ c.history.replied).Perm c.history.called) :
    ((c.proceed op thread q p).waiting ++ (c.proceed op thread q p).history.replied).Perm
      (c.proceed op thread q p).history.called := by
  cases p with
  | finished result s => exact h
  | calling call s resume => exact h.cons (op, call)

/-- Each call was replied to, or somebody waits in it. -/
theorem Reaches.calls_settled (run : Reaches (.initial root) c) :
    (c.waiting ++ c.history.replied).Perm c.history.called := by
  refine run.invariant (p := fun c => (c.waiting ++ c.history.replied).Perm c.history.called)
    .nil fun {d _ _} h step => ?_
  cases step with
  | @start thread q => exact Situation.proceed_settled (c := d.note (.begins _ thread q)) h
  | @reply f r hf =>
    refine Situation.proceed_settled (c := d.answered f r) (.trans ?_ h)
    -- the call goes over from those that are waited in to those that were replied to
    have innermost : d.waiting = (f.op, f.call) :: d.stack.tail.map fun f => (f.op, f.call) := by
      rw [Situation.waiting, List.eq_cons_of_mem_head? hf]
      rfl
    rw [innermost]
    exact List.perm_middle

/-- The string that an operation reads in a call. -/
def reading? : Nat × Call → Option (Nat × HostString)
  | (op, .host (.readString text)) => some (op, text)
  | _ => none

/-- The strings that are being read. -/
def Situation.reading (c : Situation) : List (Nat × HostString) :=
  c.waiting.filterMap reading?

namespace History

variable (h : History)

/-- Every string that was read or is being read, newest first. -/
def readTexts : List (Nat × HostString) :=
  h.called.filterMap reading?

variable {h}

/-- Two readings of events, one after the other. -/
theorem filterMap_events {β γ : Type} {f : Event → Option β} {g : β → Option γ}
    {k : Event → Option γ} (hk : ∀ e, (f e).bind g = k e) :
    (h.filterMap (f ·.event)).filterMap g = h.filterMap (k ·.event) := by
  rw [List.filterMap_filterMap]
  exact congrArg (h.filterMap ·) (funext fun m => hk m.event)

theorem due?_read (e : Event) : (due? e).bind Handling.read? = answered? e := by
  cases e with
  | replies op thread call reply lost =>
    cases call with
    | host call =>
      cases call with
      | resolve => cases reply <;> rfl
      | _ => rfl
    | _ => rfl
  | _ => rfl

theorem handling?_read (e : Event) :
    (handling? e).bind Handling.read? = (call? e).bind reading? := by
  cases e with
  | calls op thread call =>
    cases call with
    | host call => cases call <;> rfl
    | _ => rfl
  | _ => rfl

theorem due?_freed (e : Event) :
    (due? e).bind Handling.freed? = (repliedCall? e).bind reading? := by
  cases e with
  | replies op thread call reply lost =>
    cases call with
    | host call =>
      cases call with
      | resolve => cases reply <;> rfl
      | _ => rfl
    | _ => rfl
  | _ => rfl

theorem handling?_freed (e : Event) : (handling? e).bind Handling.freed? = freed? e := by
  cases e with
  | calls op thread call =>
    cases call with
    | host call => cases call <;> rfl
    | _ => rfl
  | _ => rfl

theorem dues_read : h.dues.filterMap Handling.read? = h.answeredTexts :=
  filterMap_events due?_read

theorem handlings_freed : h.handlings.filterMap Handling.freed? = h.freedTexts :=
  filterMap_events handling?_freed

theorem readTexts_eq : h.readTexts = h.handlings.filterMap Handling.read? := by
  rw [readTexts, called, filterMap_events fun _ => rfl, handlings,
    filterMap_events handling?_read]

theorem replied_eq : h.replied.filterMap reading? = h.dues.filterMap Handling.freed? := by
  rw [replied, filterMap_events fun _ => rfl, dues, filterMap_events due?_freed]

end History

/-- All that was answered was read, or is being read. -/
theorem Reaches.answers_read (run : Reaches (.initial root) c) :
    c.history.readTexts = c.history.answeredTexts := by
  rw [readTexts_eq, ← run.gives_back.2, dues_read]

/-- And it was given back, but for the strings that are being read. -/
theorem Reaches.answers_freed (run : Reaches (.initial root) c) :
    (c.reading ++ c.history.freedTexts).Perm c.history.answeredTexts := by
  have freed : c.history.freedTexts = c.history.replied.filterMap reading? := by
    rw [replied_eq, run.gives_back.2, handlings_freed]
  rw [← run.answers_read, freed, Situation.reading, ← List.filterMap_append]
  exact run.calls_settled.filterMap reading?

/-! ### Who is asked -/

namespace History

variable {h : History} {op : Nat} {thread : Thread} {call : Call} {s : State} {o o' : HostObject}

/-- Each call of an operation is one that its request may make, as it stands. -/
theorem asking_of_calls {later before : History} (ha : h.Always Accounted)
    (heq : h = later ++ ⟨.calls op thread call, s⟩ :: before) :
    ∃ q s₀, ⟨.begins op thread q, s₀⟩ ∈ before ∧
      Asking (q.inquiry? s₀) (exchanges op before) call := by
  obtain ⟨-, q, s₀, hb, planned⟩ := (heq ▸ ha).split
  exact ⟨q, s₀, hb, planned _ q.follows_asking⟩

/-- An operation asks one object, which is the one that it found. -/
theorem inquiry?_of_asks (ha : h.Always Accounted) (asks : h.Asks op o) :
    ∃ thread q s₀ query, ⟨.begins op thread q, s₀⟩ ∈ h ∧ q.inquiry? s₀ = some (o, query) := by
  obtain ⟨query, thread, s, hm⟩ := asks
  obtain ⟨later, before, heq⟩ := List.append_of_mem hm
  obtain ⟨q, s₀, hb, asking⟩ := asking_of_calls ha heq
  exact ⟨thread, q, s₀, query, by simp [heq, hb], asking.of_resolve⟩

theorem asks_unique (ha : h.Always Accounted) (asks : h.Asks op o) (asks' : h.Asks op o') :
    o = o' := by
  obtain ⟨thread, q, s₀, query, hb, found⟩ := inquiry?_of_asks ha asks
  obtain ⟨thread', q', s₀', query', hb', found'⟩ := inquiry?_of_asks ha asks'
  obtain ⟨-, rfl, rfl⟩ := begins_unique ha hb hb'
  rw [found, Option.some.injEq, Prod.mk.injEq] at found'
  exact found'.1

theorem calls_of_mem_readTexts {text : HostString} (hm : (op, text) ∈ h.readTexts) :
    ∃ thread s, ⟨.calls op thread (.host (.readString text)), s⟩ ∈ h := by
  obtain ⟨⟨op', call⟩, hc, hr⟩ := List.mem_filterMap.mp hm
  obtain ⟨⟨e, s⟩, hm, he⟩ := List.mem_filterMap.mp hc
  cases e with
  | calls op'' thread call' =>
    cases he
    unfold reading? at hr
    split at hr
    · next heq =>
      cases hr
      cases heq
      exact ⟨thread, s, hm⟩
    · cases hr
  | _ => cases he

/-- An operation that reads a string has read none before. -/
theorem not_mem_readTexts {later before : History} {text : HostString} (ha : h.Always Accounted)
    (heq : h = later ++ ⟨.calls op thread (.host (.readString text)), s⟩ :: before) :
    op ∉ before.readTexts.map (·.1) := by
  obtain ⟨made_eq, q, s₀, -, planned⟩ := (heq ▸ ha).split
  obtain ⟨o, query, status, s₁, s₂, told⟩ := (planned _ q.follows_asking).of_readString
  intro mem
  obtain ⟨⟨op', text'⟩, read, rfl⟩ := List.mem_map.mp mem
  obtain ⟨thread', s', hm⟩ := calls_of_mem_readTexts read
  -- an earlier one would be among the calls made before
  have earlier := mem_made hm rfl
  rw [made_eq, told] at earlier
  simp at earlier

theorem nodup_readTexts (ha : h.Always Accounted) : (h.readTexts.map (·.1)).Nodup := by
  induction h with
  | nil => exact List.nodup_nil
  | cons m before ih =>
    have older := ih ha.2
    obtain ⟨e, s⟩ := m
    cases e with
    | calls op thread call =>
      cases hr : reading? (op, call) with
      | none => simpa [readTexts, called, call?, hr] using older
      | some x =>
        unfold reading? at hr
        split at hr
        · next heq =>
          cases hr
          cases heq
          exact List.nodup_cons.mpr ⟨not_mem_readTexts ha (List.nil_append _).symm, older⟩
        · cases hr
    | _ => exact older

/-- An operation goes on to something that is not about a string of the host's. -/
def goesOn : Event → Bool
  | .calls _ _ call => call.mute
  | .ends .. => true
  | .begins .. | .replies .. => false

/-- An operation that goes on has given back all that it was answered with. -/
theorem freed_of_goesOn {m : Moment} {later before : History} {text : HostString}
    (ha : h.Always Accounted) (hg : h.Always GivesBack) (heq : h = later ++ m :: before)
    (hm : goesOn m.event = true) (answered : (m.event.op, text) ∈ before.answeredTexts) :
    (m.event.op, text) ∈ before.freedTexts := by
  have accounted : Accounted m before := (heq ▸ ha).split
  have gives : GivesBack m before := (heq ▸ hg).split
  have made_eq : made m.event.op before = (exchanges m.event.op before).map (·.call) := by
    obtain ⟨e, s⟩ := m
    cases e with
    | calls | ends => exact accounted.1
    | begins | replies => cases hm
  have nothing : handling? m.event = none := by
    obtain ⟨e, s⟩ := m
    cases e with
    | calls op thread call => simp [handling?, Call.handling?_of_mute hm]
    | _ => rfl
  have settled : before.dues = before.handlings := by
    have due := dues_eq (hg.of_suffix (suffix_of_split heq))
    rwa [← gives, nothing, Option.toList_none, List.nil_append] at due
  -- the string was read, the read is over, and so the string was given back
  have read : (m.event.op, text) ∈ before.readTexts := by
    rwa [readTexts_eq, ← settled, dues_read]
  obtain ⟨thread, s, called⟩ := calls_of_mem_readTexts read
  obtain ⟨x, told, same⟩ := List.mem_map.mp (made_eq ▸ mem_made called rfl)
  obtain ⟨thread', lost, replied⟩ := replies_of_mem_exchanges told
  have finished : (m.event.op, text) ∈ before.replied.filterMap reading? :=
    List.mem_filterMap.mpr ⟨(m.event.op, x.call), List.mem_filterMap.mpr ⟨_, replied, rfl⟩,
      by rw [same]; rfl⟩
  rwa [replied_eq, settled, handlings_freed] at finished

/-- Where only what is pinned is unpinned, what is pinned was not unpinned
    before. -/
theorem not_mem_takenBack (ht : h.Always fun m before => ∀ r, takenBack? m.event = some r →
    r ∈ History.pinned before) (fresh : h.FreshPins) (hp : o ∈ h.pinned) : o ∉ h.takenBack := by
  have handed := List.nodup_iff_count_le_one.mp (nodup_handedOut fresh) o
  have split := count_handedOut ht o
  have held := List.count_pos_iff.mpr hp
  rw [← List.count_eq_zero]
  omega

end History

/-- How owners are named in a run from `root`, and how the host's answers are
    given back. -/
structure OwnersNamed (root : State) (c : Situation) : Prop where
  /-- Only a request that found a tunnel asks for an owner, and only that
      tunnel's object, on a thread that the host attached.  The pointer that is
      answered is read next of all, and then it is given back. -/
  asked : ∀ {op thread call s'} {later before : History},
    c.history = later ++ ⟨.calls op thread call, s'⟩ :: before →
    ∃ q s, ⟨.begins op thread q, s⟩ ∈ before ∧ Asking (q.inquiry? s) (exchanges op before) call
  /-- A request for an owner ends with what was read, if there was an answer and
      that is valid UTF-8, and with the empty string otherwise. -/
  named : ∀ {op thread q result s'} {later before : History},
    c.history = later ++ ⟨.ends op thread q result, s'⟩ :: before → q.asks = true →
    ∃ s name, ⟨.begins op thread q, s⟩ ∈ before ∧
      Named (q.inquiry? s) (exchanges op before) name ∧ q.States result name
  /-- A string is read in the moment after it was answered, and only then.  It is
      given back in the moment after it was read, and only then. -/
  atOnce : c.history.Always GivesBack
  /-- So an operation that goes on, be it to detach its thread, to give back its
      loan or to end, has given back what it was answered with. -/
  settled : ∀ {m text} {later before : History}, c.history = later ++ m :: before →
    goesOn m.event = true → (m.event.op, text) ∈ before.answeredTexts →
    (m.event.op, text) ∈ before.freedTexts
  /-- And all that was answered was given back, but for what is being read. -/
  freed : (c.reading ++ c.history.freedTexts).Perm c.history.answeredTexts
  /-- No operation is answered twice. -/
  answeredOnce : (c.history.answeredTexts.map (·.1)).Nodup
  /-- So each answer was given back once. -/
  once : (c.history.freedTexts.map (·.1)).Nodup
  /-- What is asked is pinned until its answer was given back.  Where the host
      hands out each reference once, it was not unpinned before. -/
  pinned : root.registry.entries = [] → c.history.Careful → c.history.CreatedBare →
    ∀ f ∈ c.stack, f.call.mute = false → ∀ o, c.history.Asks f.op o →
      o ∈ c.history.pinned ∧ (c.history.FreshPins → o ∉ c.history.takenBack)

theorem Reaches.inquired_pinned (run : Reaches (.initial root) c)
    (empty : root.registry.entries = []) (careful : c.history.Careful)
    (bare : c.history.CreatedBare) {f : Frame} (hf : f ∈ c.stack) (hc : f.call.mute = false)
    {o : HostObject} (asks : c.history.Asks f.op o) :
    o ∈ c.history.pinned ∧ (c.history.FreshPins → o ∉ c.history.takenBack) := by
  obtain ⟨call, same, ht⟩ : ∃ call, f.call = .host call ∧ call.textless = false := by
    generalize f.call = call at hc
    cases call with
    | host call => exact ⟨call, rfl, hc⟩
    | _ => cases hc
  obtain ⟨o', asks', held⟩ := run.pinned_of_inquiry empty careful bare hf same ht
  obtain rfl := asks_unique run.accounted asks asks'
  have taken := Always.imp (fun _ _ => Lends.takes) (run.lawful_loans empty careful bare)
  exact ⟨held, fun fresh => not_mem_takenBack taken fresh held⟩

/-- No operation is answered twice, and so none gives back twice. -/
theorem Reaches.answered_once (run : Reaches (.initial root) c) :
    (c.history.answeredTexts.map (·.1)).Nodup ∧ (c.history.freedTexts.map (·.1)).Nodup := by
  have once : (c.history.answeredTexts.map (·.1)).Nodup :=
    run.answers_read ▸ nodup_readTexts run.accounted
  have all := (run.answers_freed.map (·.1)).nodup_iff.mpr once
  rw [List.map_append] at all
  exact ⟨once, all.of_append_right⟩

/-- Whatever the engine asks and the host answers, and whatever happens
    meanwhile, owners are named and answers given back as they should be, and
    the string that an engine gets is there. -/
theorem owners_named (run : Reaches (.initial root) c) :
    OwnersNamed root c ∧
    ∀ (t : CallbackTable) (handle : UInt64) (protocol : Int32) (source target : Option CString)
      (uid : Int32), t.pointOwner handle protocol source target uid =
        some <$> t.serve (.resolveOwner handle protocol source target uid) := by
  have ha := run.accounted
  have owners : OwnersNamed root c := {
    asked heq := asking_of_calls ha heq
    named {op thread q result s'} {later before} heq hq := by
      obtain ⟨-, s, hb, planned⟩ := (heq ▸ ha).split
      obtain ⟨name, named, states⟩ := planned _ (Request.follows_inquiry hq)
      exact ⟨s, name, hb, named, states⟩
    atOnce := run.gives_back.1
    settled heq hm answered := freed_of_goesOn ha run.gives_back.1 heq hm answered
    freed := run.answers_freed
    answeredOnce := run.answered_once.1
    once := run.answered_once.2
    pinned empty careful bare _ hf hc _ := run.inquired_pinned empty careful bare hf hc }
  exact ⟨owners, CallbackTable.pointOwner_eq⟩

/-- The name that an engine gets at an event. -/
def Moment.name? (m : Moment) : Option CString :=
  match m.event with
  | .ends _ _ (.callback _ (.resolveOwner ..)) name => some name
  | _ => none

/-- The name of an application. -/
def Sample.owner : CString := ⟨⟨#[0x61, 0x70, 0x70]⟩, by simp⟩

/-- Bytes that are no text. -/
def Sample.garbled : CString := ⟨⟨#[0xff]⟩, by simp⟩

/-- Where the host puts its answers. -/
def Sample.place : HostString := ⟨0x5000, by decide⟩

set_option maxRecDepth 8192 in
/-- While a tunnel object is asked for an owner its handle is released, and then
    the host answers. -/
def releasedWhileAsked : Situation :=
  ((Situation.initial (.initial 0)).play?
    [.start ⟨"host"⟩ (.entry (.init (some ⟨[]⟩) (some ⟨true, 2⟩))),
     .start ⟨"host"⟩ (.registry (.register Sample.object .tunnel)),
     .reply (.host .attach) (0 : Int32),
     .reply (.host (.pin Sample.object)) (some Sample.reference),
     .start ⟨"engine"⟩ (.callback ⟨true⟩ (.resolveOwner 1 6 none none 1000)),
     .reply (.host .attach) (1 : Int32),
     .start ⟨"host"⟩ (.registry (.releaseRaw ⟨1⟩)),
     .reply (.host (.resolve Sample.reference ⟨6, .empty, .empty, 1000⟩))
       (some Sample.place)]).get rfl

set_option maxRecDepth 8192 in
/-- While that answer is read, the handle is asked once more.  Another tunnel is
    then asked, and the host answers in the same place, with no text. -/
def askedAfterwards : Situation :=
  (releasedWhileAsked.play?
    [.start ⟨"host"⟩ (.callback ⟨true⟩ (.resolveOwner 1 6 none none 1000)),
     .reply (.system .clock) (0 : UInt64),
     .reply (.host (.readString Sample.place)) Sample.owner,
     .reply (.host (.freeString Sample.place)) (),
     .reply (.host .detach) (),
     .reply (.host .attach) (0 : Int32),
     .reply (.host (.unpin Sample.reference)) (),
     .start ⟨"host"⟩ (.registry (.register Sample.object .tunnel)),
     .reply (.host .attach) (0 : Int32),
     .reply (.host (.pin Sample.object)) (some Sample.reference'),
     .start ⟨"engine"⟩ (.callback ⟨true⟩ (.resolveOwner 2 6 none none 1000)),
     .reply (.host .attach) (0 : Int32),
     .reply (.host (.resolve Sample.reference' ⟨6, .empty, .empty, 1000⟩)) (some Sample.place),
     .reply (.host (.readString Sample.place)) Sample.garbled,
     .reply (.host (.freeString Sample.place)) (),
     .reply (.system .clock) (0 : UInt64)]).get rfl

set_option maxRecDepth 8192 in
theorem owners_named_askedAfterwards :
    Reaches (.initial (.initial 0)) askedAfterwards ∧ askedAfterwards.AtRest ∧
      askedAfterwards.history.filterMap Moment.name? = [.empty, Sample.owner, .empty] ∧
      askedAfterwards.history.freedTexts = [(6, Sample.place), (2, Sample.place)] ∧
      OwnersNamed (.initial 0) askedAfterwards ∧
      releasedWhileAsked.reading = [(2, Sample.place)] ∧
      releasedWhileAsked.history.freedTexts = [] ∧
      releasedWhileAsked.state.registry.contains ⟨1⟩ = false ∧
      Sample.reference ∈ releasedWhileAsked.history.pinned ∧
      Sample.reference ∉ releasedWhileAsked.history.takenBack := by
  have run : Reaches (.initial (.initial 0)) releasedWhileAsked := Situation.reaches_get_play? _
  have later : Reaches releasedWhileAsked askedAfterwards := Situation.reaches_get_play? _
  have asks : releasedWhileAsked.history.Asks 2 Sample.reference :=
    ⟨_, calls_of_mem_made (by decide : .host (.resolve Sample.reference ⟨6, .empty, .empty, 1000⟩) ∈
      made 2 releasedWhileAsked.history)⟩
  obtain ⟨held, kept⟩ := (owners_named run).1.pinned rfl (by decide) (by decide) _
    (List.mem_cons_self ..) rfl Sample.reference asks
  exact ⟨run.trans later, rfl, rfl, rfl, (owners_named (run.trans later)).1, rfl, rfl, rfl, held,
    kept (by decide)⟩

end Run

end CallbackBridge
