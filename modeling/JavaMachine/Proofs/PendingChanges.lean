import JavaMachine.Proofs.Strings

/-!
# Computations that may raise an exception

The lemma of a function that may raise an exception holds of every relation that allows the memory
to be stirred and an exception to become pending.

One relation is meant first.  `Machine.SameStacks`: the frames, the operands and the counters of the
thread are the same, while an exception may have become pending.  The halt flag is part of it in one
direction.
-/

namespace JavaMachine

/-! ## The stacks of a machine -/

namespace Machine

/-- The frames of the thread. -/
abbrev frames (m : Machine) : List Frame := m.thread.frames

/-- The operands of the thread, the top one last. -/
abbrev operands (m : Machine) : List Operand := m.thread.operands.toList

/-- The number of operands below those of the current frame. -/
abbrev base (m : Machine) : Nat := m.thread.stackBase

/-- The address of the current instruction. -/
abbrev tag (m : Machine) : Nat := m.thread.instructionPc

end Machine

/-- A relation between machines that also allows an exception to become pending or to be taken. -/
class AllowsRaise (R : Machine → Machine → Prop) : Prop extends AllowsWorld R where
  /-- Exceptions are not looked at. -/
  raise : ∀ {m : Machine} (pending : Option Handle),
    R m { m with thread := { m.thread with pending } }

/-! ## Computations that leave the stacks alone -/

/-- The second machine has the stacks of the first one: its frames, its operands and its counters.
It is halted if the first one is. -/
structure Machine.SameStacks (m m' : Machine) : Prop where
  /-- The frames are the same. -/
  frames : m'.frames = m.frames
  /-- The operands are the same. -/
  operands : m'.operands = m.operands
  /-- The depth counters are the same. -/
  depths : m'.thread.depths = m.thread.depths
  /-- As many runs are in progress. -/
  level : m'.thread.level = m.thread.level
  /-- No deeper stack of frames has been seen. -/
  deepest : m'.thread.deepest = m.thread.deepest
  /-- No run was left without its value. -/
  bare : m'.thread.bare = m.thread.bare
  /-- A halted machine stays halted. -/
  halted : m.world.halted = true → m'.world.halted = true

instance : AllowsRaise Machine.SameStacks where
  refl _ := ⟨rfl, rfl, rfl, rfl, rfl, rfl, id⟩
  trans _ _ _ first second :=
    { frames := second.frames.trans first.frames
      operands := second.operands.trans first.operands
      depths := second.depths.trans first.depths
      level := second.level.trans first.level
      deepest := second.deepest.trans first.deepest
      bare := second.bare.trans first.bare
      halted := second.halted ∘ first.halted }
  world stirs := ⟨rfl, rfl, rfl, rfl, rfl, rfl, stirs.halted⟩
  raise _ := ⟨rfl, rfl, rfl, rfl, rfl, rfl, id⟩

theorem Machine.SameThread.sameStacks {m m' : Machine} (h : m.SameThread m') : m.SameStacks m' where
  frames := congrArg Thread.frames h.thread
  operands := by rw [Machine.operands, h.thread]
  depths := by rw [h.thread]
  level := by rw [h.thread]
  deepest := by rw [h.thread]
  bare := by rw [h.thread]
  halted := h.halted

namespace Exec

variable {α : Type} {R : Machine → Machine → Prop} [AllowsRaise R]

theorem Keeps.sameStacks {x : Exec α} (hx : Keeps Machine.SameThread x) :
    Keeps Machine.SameStacks x :=
  hx.mono fun _ _ => Machine.SameThread.sameStacks

theorem setPending_keeps (h : Handle) : Keeps R (setPending h) :=
  fun _ _ => AllowsRaise.raise (some h)

theorem takePending_keeps : Keeps R takePending :=
  fun _ _ => AllowsRaise.raise none

/-! ### Raising exceptions -/

theorem raiseOutOfMemory_keeps : Keeps R raiseOutOfMemory := by
  refine (report_keeps _).bind fun _ s m => ?_
  refine Keeps.bind_after (findClass_keeps _ s m) fun cls mid looked => ?_
  obtain ⟨rfl, found⟩ := findClass_ok looked
  rw [← Library.name_of_find? found] at found
  exact Keeps.bind_after (newInstance_after found) fun h _ _ => setPending_keeps h _ _

/-- An allocation for the guest keeps a relation from a machine on if raising the memory error does. -/
theorem orOutOfMemory_allowed {R : Machine → Machine → Prop} [IsPreorder Machine R] {x : Exec α}
    {s : Settings} {m : Machine} (raises : Keeps R raiseOutOfMemory) (hx : R m (x.after s m)) :
    R m ((orOutOfMemory x).after s m) := by
  unfold orOutOfMemory
  refine Keeps.bind_after (by rwa [after_attempt]) fun result mid _ => ?_
  split
  · exact Keeps.pure _ _ _
  · split
    · exact (raises.bind fun _ => .pure _) s mid
    · exact Keeps.fail _ _ _

/-- What an allocation for the guest keeps from a machine on. -/
theorem orOutOfMemory_after {x : Exec α} {s : Settings} {m : Machine} (hx : R m (x.after s m)) :
    R m ((orOutOfMemory x).after s m) := orOutOfMemory_allowed raiseOutOfMemory_keeps hx

theorem orOutOfMemory_keeps {x : Exec α} (hx : Keeps R x) : Keeps R (orOutOfMemory x) :=
  fun s m => orOutOfMemory_after (hx s m)

theorem raise_keeps (className : String) (message : Option String)
    [own : Throwable.Raised className] :
    Keeps R (raise className message) := by
  unfold raise
  split
  · exact raiseOutOfMemory_keeps
  · refine (report_keeps _).bind fun _ s m => ?_
    refine Keeps.bind_after (findClass_keeps _ s m) fun cls mid looked => ?_
    obtain ⟨rfl, found⟩ := findClass_ok looked
    rw [← Library.name_of_find? found] at found
    refine Keeps.bind_after (orOutOfMemory_after (newInstance_after found)) fun exception mid _ => ?_
    split
    · exact Keeps.pure _ _ _
    · dsimp only
      split
      · exact setPending_keeps _ _ _
      · exact ((attachMessage_keeps _ _ own).bind fun _ => setPending_keeps _) s mid

theorem resolveClass_keeps (name : String) : Keeps R (resolveClass name) := by
  unfold resolveClass
  refine library_keeps.bind fun lib => ?_
  split
  · exact .pure _
  · exact (raise_keeps _ _).bind fun _ => .pure _

theorem resolveMethod_keeps (ref : MemberRef) : Keeps R (resolveMethod ref) := by
  unfold resolveMethod
  refine library_keeps.bind fun lib => ?_
  split
  · exact .pure _
  · exact (raise_keeps _ _).bind fun _ => .pure _

theorem receiverClass_keeps (v : Value) : Keeps R (receiverClass v) := by
  unfold receiverClass
  split
  · exact (raise_keeps _ _).bind fun _ => .pure _
  · exact heap_keeps.bind fun _ => Keeps.bind (.ofExcept _) fun _ => .pure _
  · exact resolveClass_keeps _
  · exact .fail _

theorem resolveFieldRef_keeps (ref : MemberRef) : Keeps R (resolveFieldRef ref) := by
  unfold resolveFieldRef
  refine (resolveClass_keeps _).bind fun cls => ?_
  split
  · exact .pure _
  · refine (resolveField_keeps _ _).bind fun field => ?_
    split
    · exact .pure _
    · exact (raise_keeps _ _).bind fun _ => .pure _

theorem orOutOfMemory_some {x : Exec α} {a : α} {s : Settings} {m m' : Machine}
    (h : orOutOfMemory x s m = .ok (some a) m') : x s m = .ok a m' := by
  obtain ⟨result, mid, attempted, rest⟩ := bind_eq_ok h
  cases result with
  | ok b =>
      cases rest
      exact attempt_eq_ok attempted
  | error e =>
      dsimp only at rest
      split at rest
      · obtain ⟨_, last, -, rest⟩ := bind_eq_ok rest
        cases rest
      · cases rest

theorem intern_keeps (text : String) : Keeps R (intern text) := by
  intro s m
  refine Keeps.bind_after (world_keeps s m) fun w mid read => ?_
  cases read
  cases known : m.world.interned.lookup text with
  | some r => exact Keeps.pure _ s m
  | none =>
      have asking : Keeps R (orOutOfMemory (newString text)) :=
        orOutOfMemory_keeps (newString_keeps text)
      cases asked : orOutOfMemory (newString text) s m with
      | error stop mid =>
          rw [after_of_error (bind_of_error asked)]
          exact asking.of_error asked
      | ok string mid =>
          cases string with
          | none =>
              rw [after_of_ok (bind_of_ok asked)]
              exact asking.of_ok asked
          | some r =>
              have made := orOutOfMemory_some asked
              rw [after_of_ok (bind_of_ok asked)]
              obtain ⟨w, t⟩ := mid
              obtain rfl : t = m.thread := ((newString_stirsMemory text).of_ok made).thread
              exact AllowsWorld.world (stirsMemory_noting known made)

/-! ### Elements that fit -/

theorem runtimeTypeName_run (v : Value) {s : Settings} {m : Machine} :
    runtimeTypeName v s m = ofExcept (m.world.heap.typeName v) s m := by
  cases v with
  | object r =>
      rw [runtimeTypeName, bind_of_ok heap_run, Heap.typeName]
      cases m.world.heap.classOf r <;> rfl
  | array r => rw [runtimeTypeName, bind_of_ok heap_run, Heap.typeName]
  | _ => rfl

/-- A reference that is not refused fits. -/
theorem misfit_ok {descriptor : String} {v : Value} {refused : Option String} {s : Settings}
    {m m' : Machine} (h : misfit descriptor v s m = .ok refused m') :
    m' = m ∧ (refused = none → m.world.Fits descriptor v) := by
  unfold misfit at h
  split at h
  next null =>
    cases h
    exact ⟨rfl, fun _ => .inl null⟩
  next =>
    obtain ⟨source, mid, named, h⟩ := bind_eq_ok h
    rw [runtimeTypeName_run] at named
    cases type : m.world.heap.typeName v with
    | error e => rw [type] at named; cases named
    | ok name =>
        rw [type] at named
        cases named
        rw [bind_of_ok library_run] at h
        split at h
        next fits =>
          cases h
          exact ⟨rfl, fun _ => .inr ⟨_, type, fits⟩⟩
        next =>
          cases h
          exact ⟨rfl, nofun⟩

/-- The leading elements that are not refused fit. -/
theorem fitting_ok {descriptor : String} {s : Settings} {m m' : Machine} {count : Nat}
    {refused : Option String} : ∀ {vs : List Value} {n : Nat},
      fitting descriptor vs n s m = .ok (count, refused) m' →
      m' = m ∧ ∀ v ∈ vs.take (count - n), m.world.Fits descriptor v
  | [], n, h => by
      cases h
      exact ⟨rfl, by simp⟩
  | v :: vs, n, h => by
      obtain ⟨first, mid, checked, h⟩ := bind_eq_ok h
      obtain ⟨rfl, fits⟩ := misfit_ok checked
      cases first with
      | some source =>
          cases h
          exact ⟨rfl, by simp⟩
      | none =>
          obtain ⟨rfl, rest⟩ := fitting_ok h
          refine ⟨rfl, fun u listed => ?_⟩
          cases k : count - n with
          | zero => simp [k] at listed
          | succ k' =>
              rw [k, List.take_succ_cons, List.mem_cons] at listed
              obtain rfl | listed := listed
              · exact fits rfl
              · exact rest u (by rwa [show count - (n + 1) = k' by omega])

theorem mem_overwrite {v : Value} : ∀ {vs : List Value} {target : Array Value} {place : Nat},
    v ∈ overwrite target place vs → v ∈ target ∨ v ∈ vs
  | [], _, _, h => .inl h
  | u :: vs, target, place, h => by
      obtain old | new := @mem_overwrite v vs _ _ h
      · obtain old | rfl := Array.mem_or_eq_of_mem_setIfInBounds old
        · exact .inl old
        · exact .inr List.mem_cons_self
      · exact .inr (List.mem_cons_of_mem u new)

theorem size_overwrite : ∀ (vs : List Value) (target : Array Value) (place : Nat),
    (overwrite target place vs).size = target.size
  | [], _, _ => rfl
  | _ :: vs, _, _ => (size_overwrite vs _ _).trans Array.size_setIfInBounds

theorem raiseMisfit_keeps (source descriptor : String) : Keeps R (raiseMisfit source descriptor) :=
  raise_keeps _ _

theorem placeFitting_after {src dest : Handle} {a b : ArrayEntry} {place : Nat}
    {moved : List Value} {fit : Nat × Option String} {s : Settings} {m : Machine}
    (read : m.world.heap.array src = .ok a) (written : m.world.heap.array dest = .ok b)
    (kind : a.kind = b.kind) (fits : ∀ v ∈ moved.take fit.1, v ∈ a.elements ∧
      (a.kind = .reference → m.world.library.isAssignable a.descriptor b.descriptor = true ∨
        m.world.Fits b.descriptor v)) :
    R m ((placeFitting dest b place moved fit).after s m) := by
  obtain ⟨count, refused⟩ := fit
  have size := size_overwrite (moved.take count) b.elements place
  refine Keeps.bind_after
    (AllowsWorld.world (.of_heap (.single (.copied read written kind size ?_) rfl))) fun _ mid _ => ?_
  · intro v listed
    exact (mem_overwrite listed).imp_right (fits v)
  · cases refused with
    | some source => exact raiseMisfit_keeps _ _ _ _
    | none => exact Keeps.pure _ _ _

theorem copyElements_keeps (src dest : Handle) (srcPlace destPlace length : Int32) :
    Keeps R (copyElements src dest srcPlace destPlace length) := by
  intro s m
  unfold copyElements
  refine Keeps.bind_after (heap_keeps s m) fun _ _ look => ?_
  cases look
  refine Keeps.ofExcept_after fun a read => ?_
  refine Keeps.bind_after (heap_keeps s m) fun _ _ look => ?_
  cases look
  refine Keeps.ofExcept_after fun b written => ?_
  split
  · exact (raise_keeps _ _) s m
  next kind =>
    split
    · exact (raise_keeps _ _) s m
    · refine Keeps.bind_after (library_keeps s m) fun _ _ look => ?_
      cases look
      have kind : a.kind = b.kind := Decidable.not_not.mp kind
      have read_moved {start stop : Nat} {v : Value}
          (listed : v ∈ (a.elements.extract start stop).toList) : v ∈ a.elements := by
        rw [Array.toList_extract, List.extract_eq_take_drop] at listed
        exact Array.mem_toList_iff.mp (List.mem_of_mem_drop (List.mem_of_mem_take listed))
      dsimp only
      split
      next checked =>
        refine Keeps.bind_after (fitting_keeps _ _ _ s m) fun fit mid found => ?_
        obtain ⟨rfl, fits⟩ := fitting_ok found
        refine placeFitting_after read written kind fun v listed => ?_
        exact ⟨read_moved (List.mem_of_mem_take listed), fun _ => .inr (fits v listed)⟩
      next unchecked =>
        refine Keeps.bind_after (Keeps.pure _ s m) fun fit mid found => ?_
        cases found
        refine placeFitting_after read written kind fun v listed => ?_
        refine ⟨read_moved (List.mem_of_mem_take listed), fun reference => .inl ?_⟩
        simpa [reference] using unchecked

/-- What comes between two instructions counts one and stirs the memory. -/
theorem safepoint_after {R : Machine → Machine → Prop} [AllowsWorld R] {s : Settings} {m : Machine}
    (counted : R m { m with thread := m.thread.tick m.world.halted }) :
    R m (safepoint.after s m) := by
  unfold safepoint
  refine Keeps.bind_after (isHalted_keeps s m) fun _ _ look => ?_
  cases look
  refine Keeps.bind_after counted fun _ mid _ => ?_
  refine (thread_keeps.bind fun t => read_keeps.bind fun s => ?_) s mid
  have ending : ∀ due : Bool, Keeps R (if due then do
      report (.collecting t.executed
        (decide (0 < s.config.collectInterval) && t.executed % s.config.collectInterval == 0))
      modifyWorld fun w => { w with collector := w.collector.collect } else pure ()) := by
    intro due
    split
    · exact (report_keeps _).bind fun _ =>
        modifyWorld_keeps fun _ => .of_eq rfl rfl rfl rfl rfl rfl rfl rfl rfl id
    · exact .pure _
  dsimp only
  split
  · exact Keeps.bind (.pure _) ending
  · exact mustCollect_keeps.bind ending

end Exec

end JavaMachine
