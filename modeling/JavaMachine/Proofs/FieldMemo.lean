import JavaMachine.Proofs.Ancestry
import JavaMachine.Proofs.Layouts

/-!
# The memo of fields

A reference to a field is searched for in the hierarchy and what it means is remembered, so that the
same reference is not searched for again.  A search that finds nothing is not remembered.

As long as nobody registers a class, the memo holds what has been found for the references that were
looked up, and nothing else (`World.Recollects`).  That is kept by one look-up, and from it follows
for any sequence of look-ups that the answers are those of the search, and which of them search.

References are compared as they are written.  Two references with different class names may mean one
field, and each of them is searched for.
-/

namespace JavaMachine

/-- The references that were looked up are remembered with the fields that the library finds for
them. -/
def World.Recollects (w : World) (refs : List (String × String)) : Prop :=
  ∀ ref, w.fieldMemo.lookup ref =
    if ref ∈ refs then w.library.findField ref.1 ref.2 else none

theorem World.recollects_nil {w : World} (fresh : w.fieldMemo = []) : w.Recollects [] := by
  intro ref
  rw [fresh]
  rfl

namespace Exec

/-- What a number of references mean, looked up one after the other. -/
def resolveFields (refs : List (String × String)) : Exec (List (Option FieldRef)) :=
  refs.mapM fun ref => resolveField ref.1 ref.2

variable {s : Settings} {m : Machine} {past : List (String × String)}

/-- A look-up answers what the library finds.  It searches unless the reference was looked up before
and something was found for it, and then the reference has been looked up. -/
theorem resolveField_recollects (recollects : m.world.Recollects past) (ref : String × String) :
    ∃ m', resolveField ref.1 ref.2 s m = .ok (m.world.library.findField ref.1 ref.2) m' ∧
      m'.world.library = m.world.library ∧ m'.world.Recollects (past ++ [ref]) ∧
      m'.world.fieldWalks = m.world.fieldWalks +
        if ref ∈ past ∧ (m.world.library.findField ref.1 ref.2).isSome then 0 else 1 := by
  have looked := recollects ref
  -- a look-up whose memo is not changed
  have same (old : ref ∈ past ∨ m.world.library.findField ref.1 ref.2 = none) :
      m.world.Recollects (past ++ [ref]) := by
    intro other
    rw [recollects other]
    by_cases here : other = ref
    · subst here
      obtain met | nothing := old
      · simp [met]
      · simp [nothing]
    · simp [here]
  unfold resolveField
  rw [bind_of_ok world_run]
  cases found : m.world.library.findField ref.1 ref.2 with
  | none =>
      have unknown : m.world.fieldMemo.lookup (ref.1, ref.2) = none := by
        rw [looked, found, ite_self]
      simp only [unknown, bind_of_ok (modifyWorld_run _), bind_of_ok library_run, found]
      exact ⟨_, rfl, rfl, same (.inr found), by simp⟩
  | some f =>
      by_cases met : ref ∈ past
      · have known : m.world.fieldMemo.lookup (ref.1, ref.2) = some f := by
          rw [looked, if_pos met, found]
        simp only [known]
        exact ⟨m, rfl, rfl, same (.inl met), by simp [met]⟩
      · have unknown : m.world.fieldMemo.lookup (ref.1, ref.2) = none := by
          rw [looked, if_neg met]
        obtain ⟨events, told⟩ := report_run (s := s)
          (m := { m with world := { m.world with fieldWalks := m.world.fieldWalks + 1 } })
          (.resolvedField ref.1 ref.2 f.decl.className)
        simp only [unknown, bind_of_ok (modifyWorld_run _), bind_of_ok library_run, found,
          bind_of_ok told]
        refine ⟨_, rfl, rfl, fun other => ?_, by simp [met]⟩
        show ((ref, f) :: m.world.fieldMemo).lookup other = _
        rw [List.lookup_cons, recollects other]
        by_cases here : other = ref
        · subst here
          simp [found]
        · simp [here, beq_false_of_ne here]

/-- The answers to any number of look-ups are those of the library. -/
theorem resolveFields_recollects (recollects : m.world.Recollects past)
    (refs : List (String × String)) : ∃ m', resolveFields refs s m =
        .ok (refs.map fun ref => m.world.library.findField ref.1 ref.2) m' ∧
      m'.world.library = m.world.library ∧ m'.world.Recollects (past ++ refs) := by
  induction refs generalizing m past with
  | nil => exact ⟨m, rfl, rfl, by rwa [List.append_nil]⟩
  | cons ref refs ih =>
      obtain ⟨mid, first, library, met, -⟩ := resolveField_recollects (s := s) recollects ref
      obtain ⟨m', rest, library', met'⟩ := ih met
      rw [library] at rest
      rw [List.append_assoc, List.singleton_append] at met'
      refine ⟨m', ?_, library'.trans library, met'⟩
      unfold resolveFields at rest ⊢
      rw [List.mapM_cons, bind_of_ok first, bind_of_ok rest]
      rfl

/-- The memo is never seen in an answer.  Let no class be above itself, and let nothing have been
looked up yet.  Then a search goes through the class, its interfaces with all that is above them and
the superclass with all that is above it, in this order, and every look-up answers what that search
finds, whatever was looked up before.  It searches unless the same reference was looked up before
and found.  What was found for a reference stays remembered for it, whatever is looked up after
that. -/
theorem memo_unseen (acyclic : m.world.library.Acyclic) (fresh : m.world.fieldMemo = []) :
    let lib := m.world.library
    (∀ className name, lib.findField className name = (lib.find? className).bind fun c =>
      (c.field? name).or <| (c.interfaces.findSome? (lib.findField · name)).or <|
        c.superName.bind (lib.findField · name)) ∧
    ∀ (before : List (String × String)) (ref : String × String), ∃ m₁ m₂,
      resolveFields before s m = .ok (before.map fun ref => lib.findField ref.1 ref.2) m₁ ∧
      resolveField ref.1 ref.2 s m₁ = .ok (lib.findField ref.1 ref.2) m₂ ∧
      m₂.world.fieldWalks = m₁.world.fieldWalks +
        (if ref ∈ before ∧ (lib.findField ref.1 ref.2).isSome then 0 else 1) ∧
      ∀ f after, lib.findField ref.1 ref.2 = some f → ∃ m₃,
        resolveFields after s m₂ = .ok (after.map fun ref => lib.findField ref.1 ref.2) m₃ ∧
        m₃.world.fieldMemo.lookup ref = some f := by
  intro lib
  refine ⟨acyclic.findField_eq, fun before ref => ?_⟩
  obtain ⟨m₁, run₁, library₁, met₁⟩ :=
    resolveFields_recollects (s := s) (World.recollects_nil fresh) before
  obtain ⟨m₂, run₂, library₂, met₂, walks⟩ := resolveField_recollects (s := s) met₁ ref
  rw [library₁] at run₂ walks library₂
  rw [List.nil_append] at walks met₂
  refine ⟨m₁, m₂, run₁, run₂, walks, fun f after found => ?_⟩
  obtain ⟨m₃, run₃, library₃, met₃⟩ := resolveFields_recollects (s := s) met₂ after
  rw [library₂] at run₃ library₃
  refine ⟨m₃, run₃, ?_⟩
  rw [met₃ ref, if_pos (by simp), library₃]
  exact found

/-- After a field was found through an interface and another one was not found, the first reference
does not search again, the second one does, and so does a new reference to the first field. -/
theorem memo_unseen_slanted :
    let m : Machine := ⟨{ library := Sample.slanted }, { id := 0 }⟩
    let before := [("C", "f"), ("C", "g")]
    let f : FieldRef := ⟨(Sample.counting "S" objectName 1).ref, 0, Sample.counter "S"⟩
    m.world.library.Acyclic ∧ m.world.fieldMemo = [] ∧
      ∀ className name answer searches,
        (className, name, answer, searches) ∈
          [("C", "f", some f, 0), ("C", "g", none, 1), ("I", "f", some f, 1)] →
        ∃ m₁ m₂, resolveFields before {} m = .ok [some f, none] m₁ ∧
          resolveField className name {} m₁ = .ok answer m₂ ∧
          m₂.world.fieldWalks = m₁.world.fieldWalks + searches := by
  intro m before f
  have acyclic : m.world.library.Acyclic :=
    Library.acyclic_of_rank (Sample.floor ["S", "I", "C"]) (by decide)
  refine ⟨acyclic, rfl, fun className name answer searches listed => ?_⟩
  obtain ⟨-, runs⟩ := memo_unseen (s := {}) acyclic rfl
  obtain ⟨m₁, m₂, first, second, walks, -⟩ := runs before (className, name)
  simp only [List.mem_cons, Prod.mk.injEq, List.not_mem_nil, or_false] at listed
  obtain ⟨rfl, rfl, rfl, rfl⟩ | ⟨rfl, rfl, rfl, rfl⟩ | ⟨rfl, rfl, rfl, rfl⟩ := listed
  all_goals exact ⟨m₁, m₂, first, second, walks⟩

end Exec

end JavaMachine
