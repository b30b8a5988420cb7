import JavaMachine.Run
import Mathlib.Order.Defs.Unbundled

/-!
# What a computation keeps

However a computation ends, it leaves a machine behind.  `after` is that machine, and `Keeps R`
says that a relation holds between the machine in which the computation starts and the one it
leaves.  A relation that is reflexive and transitive passes through sequences, so one lemma for
each function follows from the lemmas of the functions that it is made of.
-/

namespace JavaMachine

/-! ## The end of a computation -/

namespace Exec

variable {α β : Type} {x : Exec α} {f : α → Exec β} {s : Settings} {m m' : Machine}

/-- The machine in which a computation ends, with a result or without. -/
def after (x : Exec α) (s : Settings) (m : Machine) : Machine :=
  match x s m with
  | .ok _ m' => m'
  | .error _ m' => m'

theorem after_of_ok {a : α} (h : x s m = .ok a m') : x.after s m = m' := by
  simp only [after, h]

theorem after_of_error {stop : Stop} (h : x s m = .error stop m') : x.after s m = m' := by
  simp only [after, h]

theorem bind_of_ok {a : α} (h : x s m = .ok a m') : (x >>= f) s m = f a s m' := by
  simp only [Bind.bind, ReaderT.bind, EStateM.bind, h]

theorem bind_of_error {stop : Stop} (h : x s m = .error stop m') :
    (x >>= f) s m = .error stop m' := by
  simp only [Bind.bind, ReaderT.bind, EStateM.bind, h]

/-- What is done first may be replaced by what comes to the same. -/
theorem bind_of_same {y : Exec α} (h : x s m = y s m') : (x >>= f) s m = (y >>= f) s m' := by
  cases run : y s m' with
  | ok a b => rw [bind_of_ok (h.trans run), bind_of_ok run]
  | error stop b => rw [bind_of_error (h.trans run), bind_of_error run]

/-- A sequence that has a result went through a result of its first part. -/
theorem bind_eq_ok {b : β} (h : (x >>= f) s m = .ok b m') :
    ∃ a mid, x s m = .ok a mid ∧ f a s mid = .ok b m' := by
  cases hx : x s m with
  | ok a mid => exact ⟨a, mid, rfl, by rwa [bind_of_ok hx] at h⟩
  | error stop mid => rw [bind_of_error hx] at h; cases h

/-- A sequence that stops does so in its first part or behind a result of it. -/
theorem bind_eq_error {stop : Stop} (h : (x >>= f) s m = .error stop m') :
    x s m = .error stop m' ∨ ∃ a mid, x s m = .ok a mid ∧ f a s mid = .error stop m' := by
  cases hx : x s m with
  | ok a mid => exact .inr ⟨a, mid, rfl, by rwa [bind_of_ok hx] at h⟩
  | error stop' mid =>
      rw [bind_of_error hx] at h
      cases h
      exact .inl rfl

theorem map_eq_ok {g : α → β} {b : β} (h : (g <$> x) s m = .ok b m') :
    ∃ a, x s m = .ok a m' ∧ b = g a := by
  rw [map_eq_pure_bind] at h
  obtain ⟨a, mid, first, second⟩ := bind_eq_ok h
  cases second
  exact ⟨a, first, rfl⟩

theorem map_eq_error {g : α → β} {stop : Stop} (h : (g <$> x) s m = .error stop m') :
    x s m = .error stop m' := by
  rw [map_eq_pure_bind] at h
  obtain first | ⟨a, mid, -, second⟩ := bind_eq_error h
  · exact first
  · cases second

theorem discard_of_ok {a : α} (h : x s m = .ok a m') : Functor.discard x s m = .ok () m' := by
  have run : Functor.discard x s m = (x >>= fun _ => pure ()) s m := rfl
  rw [run, bind_of_ok h]
  rfl

theorem discard_of_error {stop : Stop} (h : x s m = .error stop m') :
    Functor.discard x s m = .error stop m' := by
  have run : Functor.discard x s m = (x >>= fun _ => pure ()) s m := rfl
  rw [run, bind_of_error h]

@[simp] theorem pure_run (a : α) : (pure a : Exec α) s m = .ok a m := rfl

@[simp] theorem thread_run : thread s m = .ok m.thread m := rfl

@[simp] theorem world_run : world s m = .ok m.world m := rfl

@[simp] theorem heap_run : heap s m = .ok m.world.heap m := rfl

@[simp] theorem library_run : library s m = .ok m.world.library m := rfl

@[simp] theorem isHalted_run : isHalted s m = .ok m.world.halted m := rfl

@[simp] theorem fail_run (e : Fault) : (fail e : Exec α) s m = .error (.fault e) m := rfl

@[simp] theorem modifyThread_run (g : Thread → Thread) :
    modifyThread g s m = .ok () { m with thread := g m.thread } := rfl

@[simp] theorem modifyWorld_run (g : World → World) :
    modifyWorld g s m = .ok () { m with world := g m.world } := rfl

theorem report_eq (e : Event) : report e s m = .ok () { m with world := { m.world with
    events := if s.levels.contains e.level then m.world.events.push e else m.world.events } } := by
  rw [report, bind_of_ok (x := read) (s := s) (m := m) rfl]
  split <;> rfl

theorem report_run (e : Event) :
    ∃ events, report e s m = .ok () { m with world := { m.world with events } } :=
  ⟨_, report_eq e⟩

theorem reportRefusal_run (f : Fault) :
    ∃ events, reportRefusal f s m = .ok () { m with world := { m.world with
      events, refusals := m.world.refusals + if f.isOutOfMemory then 1 else 0 } } := by
  obtain ⟨counted, same⟩ : ∃ c : Machine, c = { m with world := { m.world with
    refusals := m.world.refusals + if f.isOutOfMemory then 1 else 0 } } := ⟨_, rfl⟩
  have told (e : Event) : ∃ events,
      report e s counted = .ok () { counted with world := { counted.world with events } } :=
    report_run e
  have quiet : ∃ events, (pure () : Exec Unit) s counted =
      .ok () { counted with world := { counted.world with events } } := ⟨_, rfl⟩
  have run : countRefusal f s m = .ok () counted := same ▸ rfl
  suffices h : ∃ events, reportRefusal f s m =
      .ok () { counted with world := { counted.world with events } } by
    subst same
    exact h
  unfold reportRefusal
  rw [bind_of_ok run]
  clear same run
  split
  · exact told _
  · rw [bind_of_ok (x := heap) (m := counted) rfl]
    cases counted.world.heap.maxArrayLength with
    | some limit =>
        dsimp only
        split
        · exact told _
        · exact quiet
    | none => exact quiet
  · exact quiet

theorem ofExcept_eq_ok {r : Except Fault α} {a : α} (h : ofExcept r s m = .ok a m') :
    r = .ok a ∧ m' = m := by
  cases r with
  | ok b =>
      cases h
      exact ⟨rfl, rfl⟩
  | error e => cases h

theorem attempt_of_ok {a : α} (h : x s m = .ok a m') : attempt x s m = .ok (.ok a) m' := by
  simp only [attempt, h]

theorem attempt_of_fault {e : Fault} (h : x s m = .error (.fault e) m') :
    attempt x s m = .ok (.error e) m' := by
  simp only [attempt, h]

theorem attempt_of_stop {stop : Stop} (h : x s m = .error stop m')
    (hstop : ∀ e, stop ≠ .fault e) : attempt x s m = .error stop m' := by
  cases stop with
  | fault e => exact absurd rfl (hstop e)
  | blocked => simp only [attempt, h]
  | exhausted => simp only [attempt, h]

/-- What is attempted had a result or a fault. -/
theorem attempt_cases {r : Except Fault α} (h : attempt x s m = .ok r m') :
    (∃ a, r = .ok a ∧ x s m = .ok a m') ∨ ∃ e, r = .error e ∧ x s m = .error (.fault e) m' := by
  simp only [attempt] at h
  split at h
  next run =>
    cases h
    exact .inl ⟨_, rfl, run⟩
  next run =>
    cases h
    exact .inr ⟨_, rfl, run⟩
  · cases h

theorem attempt_eq_ok {a : α} (h : attempt x s m = .ok (.ok a) m') : x s m = .ok a m' := by
  obtain ⟨_, ⟨⟩, run⟩ | ⟨_, ⟨⟩, -⟩ := attempt_cases h
  exact run

theorem attempt_eq_fault {e : Fault} (h : attempt x s m = .ok (.error e) m') :
    x s m = .error (.fault e) m' := by
  obtain ⟨_, ⟨⟩, -⟩ | ⟨_, ⟨⟩, run⟩ := attempt_cases h
  exact run

theorem attempt_ne_fault {e : Fault} : attempt x s m ≠ .error (.fault e) m' := by
  intro h
  simp only [attempt] at h
  split at h
  · cases h
  · cases h
  next other _ =>
    cases h
    exact other _ rfl

theorem after_attempt : (attempt x).after s m = x.after s m := by
  cases hx : x s m with
  | ok a mid => rw [after_of_ok hx, after_of_ok (attempt_of_ok hx)]
  | error stop mid =>
      cases stop with
      | fault e => rw [after_of_error hx, after_of_ok (attempt_of_fault hx)]
      | blocked => rw [after_of_error hx, after_of_error (attempt_of_stop hx (by simp))]
      | exhausted => rw [after_of_error hx, after_of_error (attempt_of_stop hx (by simp))]

/-! ## Relations that a computation keeps -/

/-- A computation keeps a relation if it holds between its two ends, however it ends. -/
def Keeps (R : Machine → Machine → Prop) (x : Exec α) : Prop :=
  ∀ (s : Settings) (m : Machine), R m (x.after s m)

namespace Keeps

variable {R R' : Machine → Machine → Prop}

theorem of_ok (hx : Keeps R x) {a : α} (h : x s m = .ok a m') : R m m' :=
  after_of_ok h ▸ hx s m

theorem of_error (hx : Keeps R x) {stop : Stop} (h : x s m = .error stop m') : R m m' :=
  after_of_error h ▸ hx s m

theorem mono (hx : Keeps R x) (sub : ∀ m m', R m m' → R' m m') : Keeps R' x :=
  fun s m => sub _ _ (hx s m)

theorem attempt (hx : Keeps R x) : Keeps R (attempt x) := by
  intro s m
  rw [after_attempt]
  exact hx s m

variable [IsPreorder Machine R]

theorem pure (a : α) : Keeps R (Pure.pure a : Exec α) := fun _ m => Std.Refl.refl m

theorem throw (stop : Stop) : Keeps R (throw stop : Exec α) := fun _ m => Std.Refl.refl m

theorem fail (e : Fault) : Keeps R (fail e : Exec α) := fun _ m => Std.Refl.refl m

theorem ofExcept (r : Except Fault α) : Keeps R (ofExcept r) := by
  cases r with
  | ok a => exact .pure a
  | error e => exact .fail e

/-- A sequence keeps a relation from a machine on if its first part does, and its second part from
where the first one ends. -/
theorem bind_after (hx : R m (x.after s m))
    (hf : ∀ a mid, x s m = .ok a mid → R mid ((f a).after s mid)) : R m ((x >>= f).after s m) := by
  cases h : x s m with
  | ok a mid =>
      have run : (x >>= f).after s m = (f a).after s mid := by
        simp only [after, bind_of_ok h]
      rw [after_of_ok h] at hx
      rw [run]
      exact IsTrans.trans _ _ _ hx (hf a mid h)
  | error stop mid =>
      rw [after_of_error h] at hx
      rw [after_of_error (bind_of_error h)]
      exact hx

theorem bind (hx : Keeps R x) (hf : ∀ a, Keeps R (f a)) : Keeps R (x >>= f) :=
  fun s m => bind_after (hx s m) fun a mid _ => hf a s mid

/-- What comes behind a pure operation starts where that does. -/
theorem ofExcept_after {r : Except Fault α} (hf : ∀ a, r = .ok a → R m ((f a).after s m)) :
    R m ((Exec.ofExcept r >>= f).after s m) := by
  cases r with
  | ok a => exact hf a rfl
  | error e => exact Std.Refl.refl m

theorem map (g : α → β) (hx : Keeps R x) : Keeps R (g <$> x) := by
  rw [map_eq_pure_bind]
  exact hx.bind fun a => .pure (g a)

theorem discard (hx : Keeps R x) : Keeps R (Functor.discard x) := hx.map _

theorem forM_list {γ : Type} {g : γ → Exec PUnit} (hg : ∀ c, Keeps R (g c)) :
    ∀ l : List γ, Keeps R (l.forM g)
  | [] => .pure _
  | c :: l => (hg c).bind fun _ => forM_list hg l

theorem forM_option {γ : Type} {g : γ → Exec PUnit} (hg : ∀ c, Keeps R (g c)) :
    ∀ o : Option γ, Keeps R (o.forM g)
  | none => .pure _
  | some c => hg c

end Keeps

end Exec

end JavaMachine
