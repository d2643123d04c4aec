import CallbackBridge.CommandLine.Settings
import CallbackBridge.Proofs.Numerals

/-! # Which command lines are read, and as what

    The reader goes through the arguments from the left and takes one or two
    of them in a turn.  Here a command line is said as a whole: it is a list of
    pairs, each a flag and its value, whatever the value looks like.

    Proof structure:

    1. Each flag has one field, and taking a pair changes that field only
       (`Settings.set_ok`).  So the last pair of a flag decides (`Onto`).
    2. Every list of arguments is a list of pairs that can be taken, followed
       by nothing or by a fault (`exists_pairs`).  The reader gets through the
       pairs, whatever they are, and then answers with the fault. -/

namespace CallbackBridge.CommandLine

open Text

/-! ### Flags and their fields -/

namespace Flag

theorem ofText?_text (f : Flag) : ofText? f.text = some f := by
  cases f <;> rfl

theorem text_of_ofText? {text : String} {f : Flag} (h : ofText? text = some f) :
    f.text = text := by
  simpa using List.find?_some h

theorem ofText?_eq_none {text : String} (h : ∀ f : Flag, f.text ≠ text) :
    ofText? text = none := by
  simpa [ofText?] using fun f _ => h f

/-- What a flag sets. -/
abbrev Field : Flag → Type
  | .tunnelFd => Int32
  | .pollMillis => Nat
  | .helper | .address | .netmask | .socks | .udpGateway | .dnsGateway => String

/-- The value of a flag sets its field to `x`: a text as it stands, a signed
    32-bit descriptor, or unsigned 64-bit milliseconds, at least one. -/
def Reads : (f : Flag) → (value : String) → (x : f.Field) → Prop
  | .tunnelFd, value, fd => Decimal.Signed value fd.toInt
  | .pollMillis, value, millis =>
    ∃ n : UInt64, Decimal.Unsigned value n.toNat ∧ millis = max 1 n.toNat
  | .helper, value, x | .address, value, x | .netmask, value, x | .socks, value, x
  | .udpGateway, value, x | .dnsGateway, value, x => x = value

/-- The value of a flag sets its field to something. -/
def Takes (f : Flag) (value : String) : Prop :=
  ∃ x, f.Reads value x

/-- A value is not a number that its flag can take. -/
inductive Refuses : Flag → (value : String) → SettingsError → Prop
  | tunnelFd {value : String} : ¬ Flag.tunnelFd.Takes value →
    Refuses .tunnelFd value .invalidTunnelFd
  | pollMillis {value : String} : ¬ Flag.pollMillis.Takes value →
    Refuses .pollMillis value .invalidPollInterval

/-- A value sets a field to one thing only. -/
theorem Reads.unique {f : Flag} {value : String} {x y : f.Field} (hx : f.Reads value x)
    (hy : f.Reads value y) : x = y := by
  cases f with
  | tunnelFd =>
    exact Option.some.inj ((Decimal.int32?_eq_some_iff.mpr hx).symm.trans
      (Decimal.int32?_eq_some_iff.mpr hy))
  | pollMillis =>
    obtain ⟨n, hn, rfl⟩ := hx
    obtain ⟨m, hm, rfl⟩ := hy
    rw [Option.some.inj ((Decimal.uint64?_eq_some_iff.mpr hn).symm.trans
      (Decimal.uint64?_eq_some_iff.mpr hm))]
  | _ => exact Eq.trans hx (Eq.symm hy)

theorem Refuses.not_takes {f : Flag} {value : String} {e : SettingsError}
    (h : f.Refuses value e) : ¬ f.Takes value := by
  cases h <;> assumption

/-- Each flag has one error for its values. -/
theorem Refuses.unique {f : Flag} {value : String} {e e' : SettingsError}
    (h : f.Refuses value e) (h' : f.Refuses value e') : e = e' := by
  cases h <;> cases h' <;> rfl

end Flag

namespace Settings

variable {s t : Settings} {f : Flag} {value : String}

/-- The field of a flag. -/
def get (s : Settings) : (f : Flag) → f.Field
  | .helper => s.helper.binaryPath
  | .tunnelFd => s.helper.tunnelFd
  | .address => s.helper.address
  | .netmask => s.helper.netmask
  | .socks => s.helper.socksServer
  | .udpGateway => s.helper.udpGateway
  | .dnsGateway => s.helper.dnsGateway
  | .pollMillis => s.pollMillis

/-- There are no other fields. -/
theorem eq_of_get (h : ∀ f, s.get f = t.get f) : s = t := by
  obtain ⟨⟨path, fd, address, netmask, socks, udp, dns⟩, millis⟩ := s
  obtain ⟨⟨path', fd', address', netmask', socks', udp', dns'⟩, millis'⟩ := t
  obtain rfl : path = path' := h .helper
  obtain rfl : fd = fd' := h .tunnelFd
  obtain rfl : address = address' := h .address
  obtain rfl : netmask = netmask' := h .netmask
  obtain rfl : socks = socks' := h .socks
  obtain rfl : udp = udp' := h .udpGateway
  obtain rfl : dns = dns' := h .dnsGateway
  obtain rfl : millis = millis' := h .pollMillis
  rfl

/-- What taking a pair does: it sets the field of the flag to what the value
    reads as, and no other. -/
theorem set_ok (h : s.set f value = .ok t) :
    f.Reads value (t.get f) ∧ ∀ g, g ≠ f → t.get g = s.get g := by
  cases f with
  | tunnelFd =>
    cases hv : Decimal.int32? value with
    | none => simp [set, hv] at h
    | some fd =>
      obtain rfl : { s with helper.tunnelFd := fd } = t := by simpa [set, hv] using h
      exact ⟨Decimal.int32?_eq_some_iff.mp hv, fun g hg => by cases g <;> trivial⟩
  | pollMillis =>
    cases hv : Decimal.uint64? value with
    | none => simp [set, hv] at h
    | some millis =>
      obtain rfl : { s with pollMillis := max millis.toNat 1 } = t := by simpa [set, hv] using h
      exact ⟨⟨millis, Decimal.uint64?_eq_some_iff.mp hv, Nat.max_comm ..⟩,
        fun g hg => by cases g <;> trivial⟩
  | _ =>
    cases h
    exact ⟨rfl, fun g hg => by cases g <;> trivial⟩

/-- Only a number that is none is refused. -/
theorem set_error {e : SettingsError} (h : s.set f value = .error e) : f.Refuses value e := by
  cases f with
  | tunnelFd =>
    cases hv : Decimal.int32? value with
    | none =>
      obtain rfl : .invalidTunnelFd = e := by simpa [set, hv] using h
      refine .tunnelFd fun ⟨fd, hfd⟩ => ?_
      rw [Decimal.int32?_eq_some_iff.mpr hfd] at hv
      cases hv
    | some fd => simp [set, hv] at h
  | pollMillis =>
    cases hv : Decimal.uint64? value with
    | none =>
      obtain rfl : .invalidPollInterval = e := by simpa [set, hv] using h
      refine .pollMillis fun ⟨_, millis, hm, _⟩ => ?_
      rw [Decimal.uint64?_eq_some_iff.mpr hm] at hv
      cases hv
    | some millis => simp [set, hv] at h
  | _ => cases h

theorem set_of_takes (h : f.Takes value) : ∃ t, s.set f value = .ok t := by
  cases hs : s.set f value with
  | ok t => exact ⟨t, rfl⟩
  | error e => exact absurd h (set_error hs).not_takes

theorem set_of_refuses {e : SettingsError} (h : f.Refuses value e) :
    s.set f value = .error e := by
  cases hs : s.set f value with
  | ok t => exact absurd ⟨_, (set_ok hs).1⟩ h.not_takes
  | error e' => rw [(set_error hs).unique h]

end Settings

/-! ### Pairs -/

/-- Pairs of flags and values, as they are written. -/
def spell (pairs : List (Flag × String)) : List String :=
  pairs.flatMap fun p => [p.1.text, p.2]

@[simp] theorem spell_nil : spell [] = [] := rfl

@[simp] theorem spell_cons (p : Flag × String) (pairs : List (Flag × String)) :
    spell (p :: pairs) = p.1.text :: p.2 :: spell pairs := rfl

/-- The value of the last pair with a flag. -/
def last? (pairs : List (Flag × String)) (f : Flag) : Option String :=
  (pairs.filter (·.1 = f)).getLast?.map (·.2)

theorem last?_cons_ne {p : Flag × String} {f : Flag} (h : p.1 ≠ f)
    (pairs : List (Flag × String)) : last? (p :: pairs) f = last? pairs f := by
  simp [last?, h]

theorem last?_cons_self (p : Flag × String) (pairs : List (Flag × String)) :
    last? (p :: pairs) p.1 = some ((last? pairs p.1).getD p.2) := by
  simp only [last?, List.filter_cons, decide_true, if_true, List.getLast?_cons, Option.map_some]
  cases (pairs.filter (·.1 = p.1)).getLast? <;> rfl

/-- Every pair has a value that its flag can take. -/
def AllTaken (pairs : List (Flag × String)) : Prop :=
  ∀ p ∈ pairs, p.1.Takes p.2

/-- Settings `t` come from `s` by `pairs`: each field is the value of the last
    pair with its flag, and where there is none it is as it was. -/
structure Onto (s : Settings) (pairs : List (Flag × String)) (t : Settings) : Prop where
  told : ∀ f value, last? pairs f = some value → f.Reads value (t.get f)
  untold : ∀ f, last? pairs f = none → t.get f = s.get f

namespace Onto

variable {s t m : Settings} {p : Flag × String} {pairs : List (Flag × String)}

theorem nil_iff : Onto s [] t ↔ s = t := by
  constructor
  · exact fun h => Settings.eq_of_get fun f => (h.untold f rfl).symm
  · rintro rfl
    exact ⟨nofun, fun f _ => rfl⟩

/-- The first pair is taken, and the others are taken onto what it leads to. -/
theorem cons (hm : s.set p.1 p.2 = .ok m) : Onto s (p :: pairs) t ↔ Onto m pairs t := by
  obtain ⟨reads, others⟩ := Settings.set_ok hm
  have self := last?_cons_self p pairs
  -- the first pair decides about its own flag only, and only where no later one has it
  constructor
  · intro h
    refine ⟨fun f value hv => ?_, fun f hn => ?_⟩
    · by_cases hf : p.1 = f
      · subst hf
        exact h.told _ _ (by rw [self, hv]; rfl)
      · exact h.told _ _ (by rw [last?_cons_ne hf, hv])
    · by_cases hf : p.1 = f
      · subst hf
        exact (h.told _ p.2 (by rw [self, hn]; rfl)).unique reads
      · rw [h.untold f (by rw [last?_cons_ne hf, hn]), others f (Ne.symm hf)]
  · intro h
    refine ⟨fun f value hv => ?_, fun f hn => ?_⟩
    · by_cases hf : p.1 = f
      · subst hf
        rw [self, Option.some.injEq] at hv
        cases hl : last? pairs p.1 with
        | none =>
          rw [h.untold _ hl]
          simpa [← hv, hl] using reads
        | some value' =>
          obtain rfl : value' = value := by simpa [hl] using hv
          exact h.told _ _ hl
      · exact h.told _ _ (by rw [← last?_cons_ne hf, hv])
    · have hf : p.1 ≠ f := by
        rintro rfl
        rw [self] at hn
        cases hn
      rw [h.untold f (by rw [← last?_cons_ne hf, hn]), others f (Ne.symm hf)]

end Onto

/-! ### Reading pairs -/

variable {s t : Settings} {pairs : List (Flag × String)} {rest : List String}

theorem readOnto_taken {f : Flag} {value : String} (h : s.set f value = .ok t) :
    s.readOnto (f.text :: value :: rest) = t.readOnto rest := by
  rw [Settings.readOnto.eq_def]
  simp only [Flag.ofText?_text, h]

theorem readOnto_refused {f : Flag} {value : String} {e : SettingsError}
    (h : s.set f value = .error e) : s.readOnto (f.text :: value :: rest) = .error e := by
  rw [Settings.readOnto.eq_def]
  simp only [Flag.ofText?_text, h]

/-- Reading what is written as pairs takes them all. -/
theorem readOnto_spell_iff :
    s.readOnto (spell pairs) = .ok t ↔ AllTaken pairs ∧ Onto s pairs t := by
  induction pairs generalizing s with
  | nil =>
    rw [Onto.nil_iff, spell_nil, Settings.readOnto, Except.ok.injEq]
    simp [AllTaken]
  | cons p pairs ih =>
    rw [AllTaken, List.forall_mem_cons, spell_cons]
    cases hs : s.set p.1 p.2 with
    | ok m =>
      have takes : p.1.Takes p.2 := ⟨_, (Settings.set_ok hs).1⟩
      rw [readOnto_taken hs, ih, Onto.cons hs]
      exact ⟨fun ⟨all, onto⟩ => ⟨⟨takes, all⟩, onto⟩, fun ⟨⟨_, all⟩, onto⟩ => ⟨all, onto⟩⟩
    | error e =>
      rw [readOnto_refused hs]
      refine iff_of_false nofun fun ⟨⟨takes, _⟩, _⟩ => ?_
      obtain ⟨m, hm⟩ := Settings.set_of_takes (s := s) takes
      rw [hs] at hm
      cases hm

/-- Pairs that can be taken are taken, whatever follows. -/
theorem exists_readOnto_spell (h : AllTaken pairs) :
    ∃ t, s.readOnto (spell pairs) = .ok t ∧
      ∀ rest, s.readOnto (spell pairs ++ rest) = t.readOnto rest := by
  induction pairs generalizing s with
  | nil => exact ⟨s, rfl, fun _ => rfl⟩
  | cons p pairs ih =>
    obtain ⟨takes, all⟩ := List.forall_mem_cons.mp h
    obtain ⟨m, hm⟩ := Settings.set_of_takes (s := s) takes
    obtain ⟨t, ht, more⟩ := ih (s := m) all
    refine ⟨t, ?_, fun rest => ?_⟩
    · rw [spell_cons, readOnto_taken hm, ht]
    · rw [spell_cons, List.cons_append, List.cons_append, readOnto_taken hm, more]

/-! ### Faults -/

/-- A list of arguments begins with a flag that is not right, or with none. -/
inductive Offends : List String → SettingsError → Prop
  | unknown {argument : String} {rest : List String} : (∀ f : Flag, f.text ≠ argument) →
    Offends (argument :: rest) (.unknownArgument argument)
  | missing (f : Flag) : Offends [f.text] (.missingValue f)
  | refused {f : Flag} {value : String} {rest : List String} {e : SettingsError} :
    f.Refuses value e → Offends (f.text :: value :: rest) e

theorem readOnto_offends {e : SettingsError} (h : Offends rest e) :
    s.readOnto rest = .error e := by
  cases h with
  | unknown hn =>
    rw [Settings.readOnto.eq_def]
    simp only [Flag.ofText?_eq_none hn]
  | missing f =>
    rw [Settings.readOnto.eq_def]
    simp only [Flag.ofText?_text]
  | refused hr => exact readOnto_refused (Settings.set_of_refuses hr)

/-- Arguments are pairs that can be taken, and then there is nothing more or
    the leftmost fault. -/
theorem exists_pairs (s : Settings) (arguments : List String) :
    ∃ pairs rest, arguments = spell pairs ++ rest ∧ AllTaken pairs ∧
      (rest = [] ∨ ∃ e, Offends rest e) := by
  -- one case for each turn of the reader: it is at the end, at a fault, or takes a pair
  induction s, arguments using Settings.readOnto.induct with
  | case1 s => exact ⟨[], [], rfl, nofun, .inl rfl⟩
  | case2 s argument rest unknown =>
    refine ⟨[], _, rfl, nofun, .inr ⟨_, .unknown fun f hf => ?_⟩⟩
    rw [← hf, Flag.ofText?_text] at unknown
    cases unknown
  | case3 s argument f hf =>
    obtain rfl := Flag.text_of_ofText? hf
    exact ⟨[], _, rfl, nofun, .inr ⟨_, .missing f⟩⟩
  | case4 s argument f value rest hf t ht ih =>
    obtain rfl := Flag.text_of_ofText? hf
    obtain ⟨pairs, rest, rfl, all, fault⟩ := ih
    exact ⟨(f, value) :: pairs, rest, rfl,
      List.forall_mem_cons.mpr ⟨⟨_, (Settings.set_ok ht).1⟩, all⟩, fault⟩
  | case5 s argument f value rest hf e he =>
    obtain rfl := Flag.text_of_ofText? hf
    exact ⟨[], _, rfl, nofun, .inr ⟨_, .refused (Settings.set_error he)⟩⟩

/-! ### Whole command lines -/

section Outcomes

variable {arguments : List String}

theorem read_of_error {e : SettingsError} (h : Settings.initial.readOnto arguments = .error e) :
    Settings.read arguments = .error e := by
  rw [Settings.read, h]
  rfl

theorem read_of_named (h : Settings.initial.readOnto arguments = .ok s)
    (hp : s.helper.binaryPath ≠ "") : Settings.read arguments = .ok s := by
  rw [Settings.read, h]
  exact if_neg (by simpa using hp)

theorem read_of_unnamed (h : Settings.initial.readOnto arguments = .ok s)
    (hp : s.helper.binaryPath = "") : Settings.read arguments = .error .helperRequired := by
  rw [Settings.read, h]
  exact if_pos (by simpa using hp)

theorem read_eq_ok_iff :
    Settings.read arguments = .ok s ↔
      Settings.initial.readOnto arguments = .ok s ∧ s.helper.binaryPath ≠ "" := by
  constructor
  · intro hr
    cases h : Settings.initial.readOnto arguments with
    | error e => cases (read_of_error h).symm.trans hr
    | ok t =>
      by_cases hp : t.helper.binaryPath = ""
      · cases (read_of_unnamed h hp).symm.trans hr
      · cases (read_of_named h hp).symm.trans hr
        exact ⟨rfl, hp⟩
  · exact fun ⟨h, hp⟩ => read_of_named h hp

end Outcomes

/-- The pairs name a helper: their last one with its flag is not empty. -/
def NamesHelper (pairs : List (Flag × String)) : Prop :=
  ∃ path, last? pairs .helper = some path ∧ path ≠ ""

/-- A command line of these pairs can be accepted. -/
structure Acceptable (pairs : List (Flag × String)) : Prop where
  taken : AllTaken pairs
  names : NamesHelper pairs

/-- The helper that the pairs name is the one that they lead to. -/
theorem Onto.namesHelper_iff (h : Onto .initial pairs s) :
    NamesHelper pairs ↔ s.helper.binaryPath ≠ "" := by
  cases hl : last? pairs .helper with
  | none =>
    have none : s.helper.binaryPath = "" := h.untold .helper hl
    simp [NamesHelper, hl, none]
  | some path =>
    have told : s.helper.binaryPath = path := h.told .helper path hl
    simp [NamesHelper, hl, told]

theorem read_spell_iff :
    Settings.read (spell pairs) = .ok s ↔ Acceptable pairs ∧ Onto .initial pairs s := by
  rw [read_eq_ok_iff, readOnto_spell_iff]
  constructor
  · exact fun ⟨⟨taken, onto⟩, hp⟩ => ⟨⟨taken, onto.namesHelper_iff.mpr hp⟩, onto⟩
  · exact fun ⟨⟨taken, names⟩, onto⟩ => ⟨⟨taken, onto⟩, onto.namesHelper_iff.mp names⟩

/-- An acceptable command line is read. -/
theorem Acceptable.exists_read (h : Acceptable pairs) :
    ∃ s, Settings.read (spell pairs) = .ok s := by
  obtain ⟨s, hs, -⟩ := exists_readOnto_spell (s := .initial) h.taken
  exact ⟨s, read_spell_iff.mpr ⟨h, (readOnto_spell_iff.mp hs).2⟩⟩

/-- The leftmost fault is what a command line is refused for. -/
theorem read_offends {e : SettingsError} (taken : AllTaken pairs) (fault : Offends rest e) :
    Settings.read (spell pairs ++ rest) = .error e := by
  obtain ⟨t, -, more⟩ := exists_readOnto_spell (s := .initial) taken
  exact read_of_error ((more rest).trans (readOnto_offends fault))

theorem read_unnamed (taken : AllTaken pairs) (hn : ¬ NamesHelper pairs) :
    Settings.read (spell pairs) = .error .helperRequired := by
  obtain ⟨t, ht, -⟩ := exists_readOnto_spell (s := .initial) taken
  have onto := (readOnto_spell_iff.mp ht).2
  exact read_of_unnamed ht (not_not.mp (mt onto.namesHelper_iff.mpr hn))

/-- How a command line can be: acceptable, without a helper, or with a fault. -/
inductive Shape : List String → Prop
  | acceptable {pairs : List (Flag × String)} : Acceptable pairs → Shape (spell pairs)
  | unnamed {pairs : List (Flag × String)} : AllTaken pairs → ¬ NamesHelper pairs →
    Shape (spell pairs)
  | faulty {pairs : List (Flag × String)} {rest : List String} {e : SettingsError} :
    AllTaken pairs → Offends rest e → Shape (spell pairs ++ rest)

theorem shape (arguments : List String) : Shape arguments := by
  obtain ⟨pairs, rest, rfl, taken, rfl | ⟨e, fault⟩⟩ := exists_pairs .initial arguments
  · rw [List.append_nil]
    by_cases names : NamesHelper pairs
    · exact .acceptable ⟨taken, names⟩
    · exact .unnamed taken names
  · exact .faulty taken fault

theorem exists_read_iff {arguments : List String} :
    (∃ s, Settings.read arguments = .ok s) ↔
      ∃ pairs, arguments = spell pairs ∧ Acceptable pairs := by
  constructor
  · rintro ⟨s, hs⟩
    cases shape arguments with
    | acceptable h => exact ⟨_, rfl, h⟩
    | unnamed taken hn => cases (read_unnamed taken hn).symm.trans hs
    | faulty taken fault => cases (read_offends taken fault).symm.trans hs
  · rintro ⟨pairs, rfl, h⟩
    exact h.exists_read

theorem read_error_iff {arguments : List String} {e : SettingsError} :
    Settings.read arguments = .error e ↔
      (∃ pairs rest, arguments = spell pairs ++ rest ∧ AllTaken pairs ∧ Offends rest e) ∨
        e = .helperRequired ∧ ∃ pairs, arguments = spell pairs ∧ AllTaken pairs ∧
          ¬ NamesHelper pairs := by
  constructor
  · intro he
    cases shape arguments with
    | acceptable h =>
      obtain ⟨s, hs⟩ := h.exists_read
      cases hs.symm.trans he
    | unnamed taken hn =>
      cases (read_unnamed taken hn).symm.trans he
      exact .inr ⟨rfl, _, rfl, taken, hn⟩
    | faulty taken fault =>
      cases (read_offends taken fault).symm.trans he
      exact .inl ⟨_, _, rfl, taken, fault⟩
  · rintro (⟨pairs, rest, rfl, taken, fault⟩ | ⟨rfl, pairs, rfl, taken, hn⟩)
    · exact read_offends taken fault
    · exact read_unnamed taken hn

/-! ### Order -/

theorem last?_congr {others : List (Flag × String)}
    (h : ∀ f, others.filter (·.1 = f) = pairs.filter (·.1 = f)) :
    last? others = last? pairs := by
  funext f
  rw [last?, last?, h]

/-- Pairs with different flags may change places. -/
theorem read_reordered {others : List (Flag × String)} (ha : Acceptable pairs)
    (h : ∀ f, others.filter (·.1 = f) = pairs.filter (·.1 = f)) :
    Settings.read (spell others) = Settings.read (spell pairs) := by
  have taken : AllTaken others := by
    intro p hp
    have mem : p ∈ others.filter (·.1 = p.1) := List.mem_filter.mpr ⟨hp, by simp⟩
    rw [h] at mem
    exact ha.taken p (List.mem_filter.mp mem).1
  have same := last?_congr h
  obtain ⟨s, hs⟩ := ha.exists_read
  obtain ⟨-, onto⟩ := read_spell_iff.mp hs
  rw [hs]
  refine read_spell_iff.mpr ⟨⟨taken, ?_⟩, fun f value => ?_, fun f => ?_⟩
  · rw [NamesHelper, same]
    exact ha.names
  · rw [same]
    exact onto.told f value
  · rw [same]
    exact onto.untold f

/-! ### Settings as command lines -/

/-- Settings of a helper, as pairs. -/
def pairsOf (c : HelperConfig) : List (Flag × String) :=
  [(.helper, c.binaryPath), (.tunnelFd, Decimal.ofInt c.tunnelFd.toInt), (.address, c.address),
    (.netmask, c.netmask), (.socks, c.socksServer), (.udpGateway, c.udpGateway),
    (.dnsGateway, c.dnsGateway)]

theorem allTaken_pairsOf (c : HelperConfig) : AllTaken (pairsOf c) := by
  simp only [AllTaken, pairsOf, List.forall_mem_cons]
  exact ⟨⟨_, rfl⟩, ⟨_, Decimal.signed_ofInt _⟩, ⟨_, rfl⟩, ⟨_, rfl⟩, ⟨_, rfl⟩, ⟨_, rfl⟩, ⟨_, rfl⟩,
    nofun⟩

/-- The pairs of a helper set all of its fields, and nothing else. -/
theorem onto_pairsOf (s : Settings) (c : HelperConfig) :
    Onto s (pairsOf c) { s with helper := c } where
  told f value h := by
    cases f with
    | tunnelFd =>
      obtain rfl : Decimal.ofInt c.tunnelFd.toInt = value := Option.some.inj h
      exact Decimal.signed_ofInt _
    | pollMillis => cases h
    | _ => exact Option.some.inj h
  untold f h := by
    cases f with
    | pollMillis => rfl
    | _ => cases h

theorem readOnto_pairsOf (s : Settings) (c : HelperConfig) :
    s.readOnto (spell (pairsOf c)) = .ok { s with helper := c } :=
  readOnto_spell_iff.mpr ⟨allTaken_pairsOf c, onto_pairsOf s c⟩

/-- A helper that is written out is read back. -/
theorem read_pairsOf {c : HelperConfig} (hp : c.binaryPath ≠ "") :
    Settings.read (spell (pairsOf c)) = .ok ⟨c, Monitor.defaultInterval⟩ :=
  read_of_named (readOnto_pairsOf .initial c) hp

/-- So it is with an interval between polls. -/
theorem read_interval_pairsOf {c : HelperConfig} (hp : c.binaryPath ≠ "") (millis : UInt64) :
    Settings.read (spell ((.pollMillis, Decimal.ofNat millis.toNat) :: pairsOf c)) =
      .ok ⟨c, max 1 millis.toNat⟩ := by
  have plain : Decimal.uint64? (Decimal.ofNat millis.toNat) = some millis :=
    Decimal.uint64?_eq_some_iff.mpr (Decimal.unsigned_ofNat _)
  have set : Settings.initial.set .pollMillis (Decimal.ofNat millis.toNat) =
      .ok { Settings.initial with pollMillis := max 1 millis.toNat } := by
    simp only [Settings.set, plain, Nat.max_comm]
  exact read_of_named ((readOnto_taken set).trans (readOnto_pairsOf _ c)) hp

/-- **Command lines.**  Exactly the lists of pairs are accepted whose values
    their flags can take and that name a helper.  Then the last pair of each
    flag decides, whatever its value looks like, so that pairs with different
    flags may change places; and what is written out is read back.  All other
    lists are refused for their leftmost fault, or for want of a helper. -/
theorem command_line_read :
    (∀ arguments, (∃ s, Settings.read arguments = .ok s) ↔
      ∃ pairs, arguments = spell pairs ∧ Acceptable pairs) ∧
    (∀ pairs s, Settings.read (spell pairs) = .ok s ↔
      Acceptable pairs ∧ Onto .initial pairs s) ∧
    (∀ pairs others, Acceptable pairs →
      (∀ f, others.filter (·.1 = f) = pairs.filter (·.1 = f)) →
      Settings.read (spell others) = Settings.read (spell pairs)) ∧
    (∀ c : HelperConfig, c.binaryPath ≠ "" →
      Settings.read (spell (pairsOf c)) = .ok ⟨c, Monitor.defaultInterval⟩ ∧
      ∀ millis : UInt64,
        Settings.read (spell ((.pollMillis, Decimal.ofNat millis.toNat) :: pairsOf c)) =
          .ok ⟨c, max 1 millis.toNat⟩) ∧
    (∀ arguments e, Settings.read arguments = .error e ↔
      (∃ pairs rest, arguments = spell pairs ++ rest ∧ AllTaken pairs ∧ Offends rest e) ∨
        e = .helperRequired ∧ ∃ pairs, arguments = spell pairs ∧ AllTaken pairs ∧
          ¬ NamesHelper pairs) :=
  ⟨fun _ => exists_read_iff, fun _ _ => read_spell_iff, fun _ _ ha => read_reordered ha,
    fun _ hp => ⟨read_pairsOf hp, read_interval_pairsOf hp⟩, fun _ _ => read_error_iff⟩

/-- Values that look like flags, a descriptor that is told twice, and an
    interval of nothing. -/
def lookalikes : List (Flag × String) :=
  [(.helper, "--socks"), (.tunnelFd, "+7"), (.pollMillis, "0"), (.helper, "--helper"),
    (.tunnelFd, "-3")]

/-- The same, with the descriptors first. -/
def lookalikesReordered : List (Flag × String) :=
  [(.tunnelFd, "+7"), (.tunnelFd, "-3"), (.helper, "--socks"), (.helper, "--helper"),
    (.pollMillis, "0")]

theorem acceptable_lookalikes : Acceptable lookalikes where
  taken := by
    have seven : Decimal.int32? "+7" = some 7 := by decide
    have minusThree : Decimal.int32? "-3" = some (-3) := by decide
    have zero : Decimal.uint64? "0" = some 0 := by decide
    simp only [AllTaken, lookalikes, List.forall_mem_cons]
    exact ⟨⟨_, rfl⟩, ⟨7, Decimal.int32?_eq_some_iff.mp seven⟩,
      ⟨_, 0, Decimal.uint64?_eq_some_iff.mp zero, rfl⟩, ⟨_, rfl⟩,
      ⟨-3, Decimal.int32?_eq_some_iff.mp minusThree⟩, nofun⟩
  names := ⟨"--helper", rfl, by decide⟩

theorem command_line_read_lookalikes :
    Acceptable lookalikes ∧
    Settings.read (spell lookalikesReordered) =
      .ok ⟨{ HelperConfig.blank with binaryPath := "--helper", tunnelFd := -3 }, 1⟩ ∧
    Settings.read (spell (pairsOf ⟨"--dnsgw", -3, "", "--helper", "", "", ""⟩)) =
      .ok ⟨⟨"--dnsgw", -3, "", "--helper", "", "", ""⟩, Monitor.defaultInterval⟩ := by
  obtain ⟨-, -, reordered, written, -⟩ := command_line_read
  refine ⟨acceptable_lookalikes, ?_, (written _ (by decide)).1⟩
  rw [reordered lookalikes lookalikesReordered acceptable_lookalikes fun f => by cases f <;> rfl]
  decide

end CallbackBridge.CommandLine
