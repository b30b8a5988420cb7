import JavaMachine.Proofs.Frugality

/-!
# Refused allocations

Four properties of a computation say what becomes of it when an allocation is refused.

* It *asks* for memory if it fails for lack of memory then, and only then (`Asks`).  The allocations
  do.
* It *answers* if it leaves an exception pending and gives up at once (`Answers`), provided that the
  library has the memory error.  Whoever makes or raises something for the guest does.
* It is *solvent* if it does not fail for lack of memory (`Solvent`).
* It is *frugal* if nothing is refused to it.

A frugal computation has the other properties.  A computation that answers may go on after a result
that does not tell that it has given up, and it may tidy up after any result.
-/

namespace JavaMachine

/-- The library has the memory error. -/
def Machine.Equipped (m : Machine) : Prop :=
  (m.world.library.find? Throwable.outOfMemoryError).isSome

instance (m : Machine) : Decidable m.Equipped := inferInstanceAs (Decidable (_ = true))

theorem Machine.Equipped.of_library {m m' : Machine} (equipped : m.Equipped)
    (same : m'.world.library = m.world.library) : m'.Equipped := by
  unfold Equipped
  rwa [same]

namespace Exec

variable {α β : Type} {x : Exec α} {f : α → Exec β}

/-! ## Computations that do not fail for lack of memory -/

/-- A computation does not fail for lack of memory, and it leaves the library as it is. -/
structure Solvent (x : Exec α) : Prop where
  /-- The library is the same when it has a result. -/
  ok : ∀ {s m a m'}, x s m = .ok a m' → m'.world.library = m.world.library
  /-- The library is the same when it fails, and the fault has another cause. -/
  fault : ∀ {s m e m'}, x s m = .error (.fault e) m' →
    m'.world.library = m.world.library ∧ e.isOutOfMemory = false

theorem Frugal.solvent (hx : Frugal x) : Solvent x where
  ok h := (hx.ok h).library
  fault h := ⟨(hx.fault h).1.library, (hx.fault h).2⟩

namespace Solvent

theorem bind (hx : Solvent x) (hf : ∀ a, Solvent (f a)) : Solvent (x >>= f) where
  ok h := by
    obtain ⟨a, mid, first, second⟩ := bind_eq_ok h
    exact ((hf a).ok second).trans (hx.ok first)
  fault h := by
    obtain first | ⟨a, mid, first, second⟩ := bind_eq_error h
    · exact hx.fault first
    · obtain ⟨same, sober⟩ := (hf a).fault second
      exact ⟨same.trans (hx.ok first), sober⟩

theorem ite {c : Prop} [Decidable c] {y : Exec α} (hx : Solvent x) (hy : Solvent y) :
    Solvent (if c then x else y) := by
  split <;> assumption

/-- What is attempted has a result, or a fault with another cause. -/
theorem attempt_cases (hx : Solvent x) {s : Settings} {m m' : Machine} {r : Except Fault α}
    (h : attempt x s m = .ok r m') : Sober r ∧ m'.world.library = m.world.library := by
  cases r with
  | ok a => exact ⟨.ok a, hx.ok (attempt_eq_ok h)⟩
  | error e =>
      obtain ⟨same, sober⟩ := hx.fault (attempt_eq_fault h)
      exact ⟨.error sober, same⟩

theorem attempt_bind {g : Except Fault α → Exec β} (hx : Solvent x)
    (hg : ∀ r, Sober r → Solvent (g r)) : Solvent (attempt x >>= g) where
  ok h := by
    obtain ⟨r, mid, first, second⟩ := bind_eq_ok h
    obtain ⟨sober, same⟩ := hx.attempt_cases first
    exact ((hg r sober).ok second).trans same
  fault h := by
    obtain first | ⟨r, mid, first, second⟩ := bind_eq_error h
    · exact absurd first attempt_ne_fault
    · obtain ⟨sober, same⟩ := hx.attempt_cases first
      obtain ⟨kept, other⟩ := (hg r sober).fault second
      exact ⟨kept.trans same, other⟩

/-- The refusals to what is not counted do not count. -/
theorem uncounted (hx : Solvent x) : Frugal (uncounted x) where
  ok {s m a m'} h := by
    rw [Exec.uncounted, bind_of_ok world_run] at h
    obtain ⟨r, mid, first, second⟩ := bind_eq_ok h
    obtain ⟨-, same⟩ := hx.attempt_cases first
    cases r with
    | error e => cases second
    | ok b =>
        cases second
        exact ⟨rfl, same⟩
  fault {s m e m'} h := by
    rw [Exec.uncounted, bind_of_ok world_run] at h
    obtain first | ⟨r, mid, first, second⟩ := bind_eq_error h
    · exact absurd first attempt_ne_fault
    · obtain ⟨sober, same⟩ := hx.attempt_cases first
      cases r with
      | ok b => cases second
      | error e =>
          cases second
          exact ⟨⟨rfl, same⟩, sober.sober rfl⟩

end Solvent

theorem Frugal.bind_solvent (hx : Frugal x) (hf : ∀ a, Solvent (f a)) : Solvent (x >>= f) :=
  hx.solvent.bind hf

/-! ## Allocations -/

/-- A computation may be refused memory, and fails for lack of memory then and only then. -/
structure Asks (x : Exec α) : Prop where
  /-- Nothing was refused when it has a result. -/
  ok : ∀ {s m a m'}, x s m = .ok a m' → m.Granted m'
  /-- Something was refused when it fails for lack of memory only. -/
  fault : ∀ {s m e m'}, x s m = .error (.fault e) m' → m'.world.library = m.world.library ∧
    (e.isOutOfMemory = false → m'.world.refusals = m.world.refusals)

theorem Frugal.asks (hx : Frugal x) : Asks x where
  ok h := hx.ok h
  fault h := ⟨(hx.fault h).1.library, fun _ => (hx.fault h).1.refusals⟩

theorem Asks.bind (hx : Asks x) (hf : ∀ a, Asks (f a)) : Asks (x >>= f) where
  ok h := by
    obtain ⟨a, mid, first, second⟩ := bind_eq_ok h
    exact (hx.ok first).trans ((hf a).ok second)
  fault h := by
    obtain first | ⟨a, mid, first, second⟩ := bind_eq_error h
    · exact hx.fault first
    · obtain ⟨same, counted⟩ := (hf a).fault second
      have granted := hx.ok first
      exact ⟨same.trans granted.library, fun other => (counted other).trans granted.refusals⟩

theorem Asks.collectTimes (hx : Asks x) :
    ∀ (n : Nat) (results : Array α), Asks (collectTimes x n results)
  | 0, _ => (Frugal.pure _).asks
  | n + 1, _ => hx.bind fun _ => collectTimes hx n _

theorem refuse_asks (e : Fault) : Asks (reportRefusal e >>= fun _ => (fail e : Exec α)) where
  ok {s m a m'} h := by
    obtain ⟨events, run⟩ := reportRefusal_run (s := s) (m := m) e
    rw [bind_of_ok run] at h
    cases h
  fault {s m e' m'} h := by
    obtain ⟨events, run⟩ := reportRefusal_run (s := s) (m := m) e
    rw [bind_of_ok run] at h
    cases h
    exact ⟨rfl, fun other => by simp [other]⟩

theorem allocate_asks (g : Heap → Except Fault (Handle × Heap)) : Asks (allocate g) := by
  refine heap_frugal.asks.bind fun h => ?_
  cases g h with
  | ok made => exact ((setHeap_frugal _).bind fun _ => .pure _).asks
  | error e => exact refuse_asks e

theorem checkLength_asks (length : Nat) : Asks (checkLength length) := by
  refine heap_frugal.asks.bind fun h => ?_
  cases h.checkLength length with
  | ok => exact (Frugal.pure _).asks
  | error e => exact refuse_asks e

theorem newInstance_asks (cls : LoadedClass) : Asks (newInstance cls false) :=
  library_frugal.asks.bind fun _ => allocate_asks _

theorem newCharacters_asks (text : String) : Asks (newCharacters text) := by
  refine (allocate_asks _).bind fun chars => Frugal.asks ?_
  exact .bind (modifyWorld_frugal (fun _ => rfl) fun _ => rfl) fun _ => .pure _

theorem newString_asks (text : String) : Asks (newString text) := by
  refine (findClass_frugal _).asks.bind fun cls => (resolveField_frugal _ _).asks.bind fun f => ?_
  cases f with
  | none => exact Frugal.asks (.fail rfl)
  | some f =>
      refine (newCharacters_asks text).bind fun chars => (newInstance_asks cls).bind fun string => ?_
      exact ((setField_frugal _ _ _).bind fun _ => .pure _).asks

theorem multiArray_asks : ∀ (descriptor : List Char) (lengths : List Nat),
    Asks (multiArray descriptor lengths)
  | _, [] => allocate_asks _
  | _, [_] => allocate_asks _
  | _, _ :: next :: rest =>
      (checkLength_asks _).bind fun _ =>
        ((multiArray_asks _ (next :: rest)).collectTimes _ _).bind fun _ => allocate_asks _

end Exec

/-! ## Computations that answer a refusal -/

/-- Between two machines the library is the same, and if it has the memory error, a refused
allocation has left an exception pending, which excludes that things went well. -/
structure Machine.Answered (well : Prop) (m m' : Machine) : Prop where
  /-- The library is the same. -/
  library : m'.world.library = m.world.library
  /-- An exception is pending if something was refused. -/
  refusals : m.Equipped →
    m'.world.refusals = m.world.refusals ∨ ¬ well ∧ m'.thread.pending.isSome

namespace Machine.Answered

variable {a b c : Machine} {well : Prop}

theorem of_granted (h : a.Granted b) : a.Answered well b := ⟨h.library, fun _ => .inl h.refusals⟩

theorem trans (first : a.Answered True b) (second : b.Answered well c) : a.Answered well c where
  library := second.library.trans first.library
  refusals equipped := by
    have same : b.world.refusals = a.world.refusals :=
      (first.refusals equipped).resolve_right fun refused => refused.1 trivial
    rw [← same]
    exact second.refusals (equipped.of_library first.library)

theorem weaken {well' : Prop} (h : a.Answered well b) (weaker : well' → well) :
    a.Answered well' b :=
  ⟨h.library, fun equipped => (h.refusals equipped).imp_right fun refused =>
    ⟨fun hope => refused.1 (weaker hope), refused.2⟩⟩

theorem tidied (h : a.Answered well b) (granted : b.Granted c)
    (pending : c.thread.pending = b.thread.pending) : a.Answered well c where
  library := granted.library.trans h.library
  refusals equipped := by
    rw [granted.refusals, pending]
    exact h.refusals equipped

end Machine.Answered

namespace Exec

variable {α β : Type} {x : Exec α} {f : α → Exec β}

/-- A type of results of which one tells that the computation has given up. -/
class GivesUp (α : Type) where
  /-- What a computation that has given up answers. -/
  nothing : α

open GivesUp (nothing)

instance : GivesUp Unit := ⟨()⟩

instance : GivesUp Bool := ⟨false⟩

instance : GivesUp (Option α) := ⟨none⟩

instance : GivesUp Flow := ⟨.next⟩

/-- A computation answers a refusal, if the library has the memory error: it leaves an exception
pending, gives up, and does not fail. -/
structure Answers [GivesUp α] (x : Exec α) : Prop where
  /-- A refusal is answered when it has a result. -/
  ok : ∀ {s m a m'}, x s m = .ok a m' → m.Answered (a ≠ nothing) m'
  /-- Nothing was refused when it fails, which is for another cause. -/
  fault : ∀ {s m e m'}, x s m = .error (.fault e) m' →
    m.Answered True m' ∧ e.isOutOfMemory = false

theorem Answers.solvent [GivesUp α] (hx : Answers x) : Solvent x where
  ok h := (hx.ok h).library
  fault h := ⟨(hx.fault h).1.library, (hx.fault h).2⟩

theorem Frugal.answers [GivesUp α] (hx : Frugal x) : Answers x where
  ok h := .of_granted (hx.ok h)
  fault h := ⟨.of_granted (hx.fault h).1, (hx.fault h).2⟩

theorem Frugal.bind_answers [GivesUp β] (hx : Frugal x) (hf : ∀ a, Answers (f a)) :
    Answers (x >>= f) where
  ok h := by
    obtain ⟨a, mid, first, second⟩ := bind_eq_ok h
    exact .trans (.of_granted (hx.ok first)) ((hf a).ok second)
  fault h := by
    obtain first | ⟨a, mid, first, second⟩ := bind_eq_error h
    · exact ⟨.of_granted (hx.fault first).1, (hx.fault first).2⟩
    · obtain ⟨answered, sober⟩ := (hf a).fault second
      exact ⟨.trans (.of_granted (hx.ok first)) answered, sober⟩

namespace Answers

variable [GivesUp β]

theorem ite {c : Prop} [Decidable c] {y y' : Exec β} (hy : Answers y) (hy' : Answers y') :
    Answers (if c then y else y') := by
  split <;> assumption

/-- A computation gives up when its first part has given up. -/
theorem bind [GivesUp α] (hx : Answers x) (gives_up : f nothing = Pure.pure nothing)
    (hf : ∀ a, a ≠ nothing → Answers (f a)) : Answers (x >>= f) where
  ok h := by
    obtain ⟨a, mid, first, second⟩ := bind_eq_ok h
    have answered := hx.ok first
    by_cases given : a = nothing
    · rw [given, gives_up] at second
      cases second
      exact answered.weaken fun other => absurd rfl other
    · exact (answered.weaken fun _ => given).trans ((hf a given).ok second)
  fault h := by
    obtain first | ⟨a, mid, first, second⟩ := bind_eq_error h
    · exact hx.fault first
    · by_cases given : a = nothing
      · rw [given, gives_up] at second
        cases second
      · obtain ⟨answered, sober⟩ := (hf a given).fault second
        exact ⟨((hx.ok first).weaken fun _ => given).trans answered, sober⟩

/-- A computation goes on with what it was given. -/
theorem bind_option {x : Exec (Option α)} {f : Option α → Exec β} (hx : Answers x)
    (gives_up : f none = Pure.pure nothing) (hf : ∀ a, Answers (f (some a))) :
    Answers (x >>= f) := by
  refine hx.bind gives_up fun a given => ?_
  obtain ⟨a, rfl⟩ := Option.ne_none_iff_exists'.mp given
  exact hf a

/-- A computation goes on if it may. -/
theorem bind_bool {x : Exec Bool} {y : Exec β} (hx : Answers x) (hy : Answers y) :
    Answers (x >>= fun may => if may = true then y else Pure.pure nothing) :=
  hx.bind rfl fun _ may => by rwa [if_pos (eq_true_of_ne_false may)]

/-- Something that went before does not matter when a computation gives up anyway. -/
theorem bind_nothing [GivesUp α] (hx : Answers x) :
    Answers (x >>= fun _ => Pure.pure (nothing : β)) where
  ok h := by
    obtain ⟨a, mid, first, second⟩ := bind_eq_ok h
    cases second
    exact (hx.ok first).weaken fun other => absurd rfl other
  fault h := by
    obtain first | ⟨a, mid, first, second⟩ := bind_eq_error h
    · exact hx.fault first
    · cases second

end Answers

theorem Answers.discard [GivesUp α] (hx : Answers x) : Answers (Functor.discard x) :=
  hx.bind_nothing

/-! ## Raising an exception -/

theorem newInstance_reserved (cls : LoadedClass) (s : Settings) (m : Machine) :
    ∃ h heap, newInstance cls true s m = .ok h { m with world := { m.world with heap } } := by
  have made : ∃ done, m.world.heap.allocateObject cls (m.world.library.instanceFields cls) true =
      .ok done := by
    simp only [Heap.allocateObject, Heap.insert, Bool.not_true, Bool.false_and]
    cases m.world.heap.free with
    | nil => simp
    | cons => simp
  obtain ⟨done, made⟩ := made
  refine ⟨done.1, done.2, ?_⟩
  rw [newInstance, bind_of_ok library_run, allocate, bind_of_ok heap_run, made]
  rfl

theorem newInstance_reserved_frugal (cls : LoadedClass) : Frugal (newInstance cls true) where
  ok {s m a m'} h := by
    obtain ⟨r, heap, run⟩ := newInstance_reserved cls s m
    rw [run] at h
    cases h
    exact ⟨rfl, rfl⟩
  fault {s m e m'} h := by
    obtain ⟨r, heap, run⟩ := newInstance_reserved cls s m
    rw [run] at h
    cases h

theorem raiseOutOfMemory_frugal : Frugal raiseOutOfMemory :=
  (report_frugal _).bind fun _ => (findClass_frugal _).bind fun _ =>
    (newInstance_reserved_frugal _).bind fun _ => setPending_frugal _

/-- The memory error is raised without fail, if the library has it. -/
theorem raiseOutOfMemory_run {s : Settings} {m : Machine} (equipped : m.Equipped) :
    ∃ m', raiseOutOfMemory s m = .ok () m' ∧ m'.thread.pending.isSome := by
  obtain ⟨cls, found⟩ := Option.isSome_iff_exists.mp equipped
  obtain ⟨events, told⟩ := report_run (s := s) (m := m) .raisingOutOfMemory
  have known : findClass Throwable.outOfMemoryError s
      { m with world := { m.world with events } } =
      .ok cls { m with world := { m.world with events } } := by
    rw [findClass, bind_of_ok library_run, Library.find, found]
    rfl
  obtain ⟨r, heap, made⟩ :=
    newInstance_reserved cls s { m with world := { m.world with events } }
  rw [raiseOutOfMemory, bind_of_ok told, bind_of_ok known, bind_of_ok made]
  exact ⟨_, rfl, rfl⟩

/-- What is asked for on behalf of the guest is given, refused, or missing for another cause. -/
theorem orOutOfMemory_cases (x : Exec α) (s : Settings) (m : Machine) :
    (∃ a mid, x s m = .ok a mid ∧ orOutOfMemory x s m = .ok (some a) mid) ∨
    (∃ e mid, x s m = .error (.fault e) mid ∧ orOutOfMemory x s m =
      if e.isOutOfMemory then (raiseOutOfMemory >>= fun _ => pure none) s mid
      else .error (.fault e) mid) ∨
    ∃ stop mid, orOutOfMemory x s m = .error stop mid ∧ ∀ e, stop ≠ .fault e := by
  cases run : x s m with
  | ok a mid => exact .inl ⟨a, mid, rfl, by rw [orOutOfMemory, bind_of_ok (attempt_of_ok run)]; rfl⟩
  | error stop mid =>
      by_cases fails : ∃ e, stop = .fault e
      · obtain ⟨e, rfl⟩ := fails
        refine .inr (.inl ⟨e, mid, rfl, ?_⟩)
        rw [orOutOfMemory, bind_of_ok (attempt_of_fault run)]
        dsimp only
        split <;> rfl
      · have other (e : Fault) : stop ≠ .fault e := fun same => fails ⟨e, same⟩
        refine .inr (.inr ⟨stop, mid, ?_, other⟩)
        rw [orOutOfMemory, bind_of_error (attempt_of_stop run other)]

/-- What is asked for on behalf of the guest is given, or the memory error is pending. -/
theorem orOutOfMemory_answers (hx : Asks x) : Answers (orOutOfMemory x) := by
  have raising : Frugal (raiseOutOfMemory >>= fun _ => pure (none : Option α)) :=
    raiseOutOfMemory_frugal.bind fun _ => .pure _
  refine ⟨fun {s m _ _} h => ?_, fun {s m _ _} h => ?_⟩
  · obtain ⟨a, mid, given, run⟩ | ⟨e, mid, missing, run⟩ | ⟨stop, mid, run, -⟩ :=
      orOutOfMemory_cases x s m
    · cases run.symm.trans h
      exact .of_granted (hx.ok given)
    · rw [run] at h
      split at h
      · have same := (hx.fault missing).1
        refine ⟨(raising.ok h).library.trans same, fun equipped => .inr ?_⟩
        obtain ⟨m', raised, pending⟩ := raiseOutOfMemory_run (s := s) (equipped.of_library same)
        rw [bind_of_ok raised] at h
        cases h
        exact ⟨fun other => other rfl, pending⟩
      · cases h
    · cases run.symm.trans h
  · obtain ⟨a, mid, given, run⟩ | ⟨e, mid, missing, run⟩ | ⟨stop, mid, run, other⟩ :=
      orOutOfMemory_cases x s m
    · cases run.symm.trans h
    · rw [run] at h
      have same := (hx.fault missing).1
      split at h
      · obtain ⟨granted, sober⟩ := raising.fault h
        refine ⟨⟨granted.library.trans same, fun equipped => ?_⟩, sober⟩
        obtain ⟨m', raised, -⟩ := raiseOutOfMemory_run (s := s) (equipped.of_library same)
        rw [bind_of_ok raised] at h
        cases h
      next cause =>
        have sober : e.isOutOfMemory = false := by simpa using cause
        cases h
        exact ⟨⟨same, fun _ => .inl ((hx.fault missing).2 sober)⟩, sober⟩
    · cases run.symm.trans h
      exact absurd rfl (other _)

/-- A message that there is no memory for is left out; nothing else was refused then. -/
theorem attachMessage_ok {exception : Handle} {className message : String} {s : Settings}
    {m m' : Machine} (h : attachMessage exception className message s m = .ok () m') :
    m'.world.library = m.world.library := by
  obtain ⟨field, a, resolved, attached⟩ := bind_eq_ok h
  have granted := (resolveField_frugal _ _).ok resolved
  cases field with
  | none =>
      cases attached
      exact granted.library
  | some field =>
      obtain ⟨text, b, made, attached⟩ := bind_eq_ok attached
      rw [← granted.library]
      cases text with
      | ok text =>
          have filled := (setField_frugal _ _ _).ok attached
          exact filled.library.trans ((newString_asks message).ok (attempt_eq_ok made)).library
      | error e =>
          have same := ((newString_asks message).fault (attempt_eq_fault made)).1
          dsimp only at attached
          split at attached
          · cases attached
            exact same
          · cases attached

theorem attachMessage_fault {exception : Handle} {className message : String} {s : Settings}
    {m m' : Machine} {e : Fault}
    (h : attachMessage exception className message s m = .error (.fault e) m') :
    m.Granted m' ∧ e.isOutOfMemory = false := by
  obtain failed | ⟨field, a, resolved, failed⟩ := bind_eq_error h
  · exact (resolveField_frugal _ _).fault failed
  have granted := (resolveField_frugal _ _).ok resolved
  cases field with
  | none => cases failed
  | some field =>
      obtain failed | ⟨text, b, made, failed⟩ := bind_eq_error failed
      · exact absurd failed attempt_ne_fault
      cases text with
      | ok text =>
          obtain ⟨filled, sober⟩ := (setField_frugal _ _ _).fault failed
          have given := (newString_asks message).ok (attempt_eq_ok made)
          exact ⟨granted.trans (given.trans filled), sober⟩
      | error cause =>
          obtain ⟨same, counted⟩ := (newString_asks message).fault (attempt_eq_fault made)
          dsimp only at failed
          split at failed
          · cases failed
          next other =>
            have sober : cause.isOutOfMemory = false := by simpa using other
            cases failed
            exact ⟨granted.trans ⟨counted sober, same⟩, sober⟩

/-- An exception is pending even when there is no memory for its message. -/
theorem attachMessage_answers (exception : Handle) (className message : String) :
    Answers (attachMessage exception className message >>= fun _ => setPending exception) where
  ok h := by
    obtain ⟨_, mid, attached, pended⟩ := bind_eq_ok h
    have same := attachMessage_ok attached
    cases pended
    exact ⟨same, fun _ => .inr ⟨fun other => other rfl, rfl⟩⟩
  fault h := by
    obtain failed | ⟨_, mid, -, failed⟩ := bind_eq_error h
    · obtain ⟨granted, sober⟩ := attachMessage_fault failed
      exact ⟨.of_granted granted, sober⟩
    · cases failed

theorem raise_answers (className : String) (message : Option String) :
    Answers (raise className message) := by
  refine .ite raiseOutOfMemory_frugal.answers ?_
  refine (report_frugal _).bind_answers fun _ => (findClass_frugal _).bind_answers fun cls => ?_
  refine (orOutOfMemory_answers (newInstance_asks cls)).bind_option rfl fun exception => ?_
  cases message with
  | none => exact (setPending_frugal _).answers
  | some message => exact attachMessage_answers _ _ _

/-! ## Computations that tidy up -/

/-- A computation does nothing but change the world, and it neither counts a refusal nor changes the
library. -/
def Tidies (y : Exec Unit) : Prop :=
  ∀ s m, ∃ w : World, y s m = .ok () { m with world := w } ∧
    w.refusals = m.world.refusals ∧ w.library = m.world.library

theorem report_tidies (e : Event) : Tidies (report e) := by
  intro s m
  obtain ⟨events, run⟩ := report_run (s := s) (m := m) e
  exact ⟨_, run, rfl, rfl⟩

theorem finishInitialisation_tidies (id : Nat) (succeeded : Bool) :
    Tidies (finishInitialisation id succeeded) := fun _ _ => ⟨_, rfl, rfl, rfl⟩

theorem exitMonitors_tidies (monitor : Option MonitorKey) :
    Tidies (monitor.forM fun k => Functor.discard (exitMonitor k)) := by
  intro s m
  cases monitor with
  | none => exact ⟨m.world, rfl, rfl, rfl⟩
  | some k => exact ⟨_, rfl, rfl, rfl⟩

/-- A computation passes on a result: it has no effect on the memory and the pending exception. -/
def Passes (r : Except Fault α) (x : Exec α) : Prop :=
  ∀ s m, ∃ m', m.Granted m' ∧ m'.thread.pending = m.thread.pending ∧ x s m = ofExcept r s m'

namespace Passes

variable {r : Except Fault α}

theorem ofExcept : Passes r (ofExcept r) := fun _ m => ⟨m, .refl m, rfl, rfl⟩

theorem after {y : Exec Unit} (hx : Passes r x) (hy : Tidies y) :
    Passes r (y >>= fun _ => x) := by
  intro s m
  obtain ⟨w, first, refusals, library⟩ := hy s m
  obtain ⟨m', granted, pending, second⟩ := hx s { m with world := w }
  refine ⟨m', .trans ⟨refusals, library⟩ granted, pending, ?_⟩
  rw [bind_of_ok first, second]

/-- A computation that tidies up, whatever came of its first part, answers as that part does. -/
theorem answers [GivesUp α] {g : Except Fault α → Exec α} (hx : Answers x)
    (hg : ∀ r, Passes r (g r)) : Answers (attempt x >>= g) where
  ok {s m a m'} h := by
    obtain ⟨r, mid, first, second⟩ := bind_eq_ok h
    obtain ⟨last, granted, pending, same⟩ := hg r s mid
    rw [same] at second
    cases r with
    | error e => cases second
    | ok b =>
        cases second
        exact (hx.ok (attempt_eq_ok first)).tidied granted pending
  fault {s m e m'} h := by
    obtain first | ⟨r, mid, first, second⟩ := bind_eq_error h
    · exact absurd first attempt_ne_fault
    obtain ⟨last, granted, pending, same⟩ := hg r s mid
    rw [same] at second
    cases r with
    | ok b => cases second
    | error e =>
        cases second
        obtain ⟨answered, sober⟩ := hx.fault (attempt_eq_fault first)
        exact ⟨answered.tidied granted pending, sober⟩

end Passes

end Exec

end JavaMachine
