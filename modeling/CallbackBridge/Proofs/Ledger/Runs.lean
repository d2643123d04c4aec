import CallbackBridge.Proofs.Ledger.Operations
import CallbackBridge.Proofs.Ledger.Ids
import CallbackBridge.Proofs.Run.Plans

/-! # Runs of the registry and the dispatcher

    Callers, the host and the engine may do as they like here: start any
    request to the registry or to the dispatcher, with any id, from any thread,
    and from inside any host call; refuse to attach or to pin; answer anything.
    A caller only has to hold the loan that it gives back. -/

namespace CallbackBridge.Run

open History

/-- A run of the registry and the dispatcher, from an empty table in `s`. -/
structure CoreRun (s : State) (c : Situation) : Prop where
  empty : s.registry.entries = []
  reaches : Reaches (.initial s) c
  core : c.history.Only Request.isCoreOrClose
  careful : c.history.Careful

namespace CoreRun

variable {s : State} {c : Situation}

theorem stands (run : CoreRun s c) : (books s).Stands c := by
  have initially : (books s).Stands (.initial s) := ⟨0, .nil, .opens run.empty⟩
  exact Rules.stands (books_kept s) run.reaches initially (run.core.and run.careful)

/-- The books are kept, and each host object that is called is on loan to the
    operation that calls it. -/
theorem booked (run : CoreRun s c) : ∃ tokens, Booked s c.state c.history tokens ∧
    ∀ f ∈ c.stack, ∀ o, target? f.call = some o → ∃ id, .loan id o ∈ tokens := by
  obtain ⟨total, standing, hb⟩ := run.stands
  refine ⟨total, hb, ?_⟩
  clear hb
  generalize c.stack = stack at standing ⊢
  induction standing with
  | nil => simp
  | @cons f below own rest _ _ permitted _ ih =>
    refine List.forall_mem_cons.mpr ⟨fun o ho => ?_, fun g hg o ho => ?_⟩
    · exact (permitted o ho).imp fun _ hl => Multiset.mem_add.mpr (.inr hl)
    · exact (ih g hg o ho).imp fun _ hl => Multiset.mem_add.mpr (.inl hl)

/-- At rest nobody has anything in hand. -/
theorem booked_at_rest (run : CoreRun s c) (rest : c.AtRest) :
    Booked s c.state c.history 0 := by
  obtain ⟨total, standing, hb⟩ := run.stands
  rw [show c.stack = [] from rest] at standing
  cases standing
  exact hb

end CoreRun

/-! ### Samples -/

namespace Sample

/-- An object of the host. -/
def object : HostObject := ⟨7, by decide⟩

/-- A reference that the host hands out for it. -/
def reference : HostObject := ⟨8, by decide⟩

/-- Another reference. -/
def reference' : HostObject := ⟨9, by decide⟩

end Sample

end CallbackBridge.Run
