import JavaMachine.Proofs.PendingChanges

/-!
# Where return addresses are

A jump to a subroutine pushes a return address.  It is of use in the code of its own frame only, and
the frame notes it down.  `Frame.Own` says of the frames of a thread and of the operands that they
share that each frame holds no other return addresses than those, in its local variables and among
its operands; without a frame there are none.  `World.Clean` says that there are none in the memory.
A machine of which both hold is `Tight`.

Values of a reference type are not told from return addresses when they are handed to a method as
arguments, answered by one or stored into a field.  So a return address may leak there, and leaks are
counted.  `Machine.Confined` is what can be said of everything that a machine does: a tight machine
stays tight, or there are more leaks than before.
-/

namespace JavaMachine

/-! ## Values -/

namespace Value

variable {α : Type} {v w : Value}

theorem plain_of_reference (reference : v.isReference = true) : v.isReturnAddress = false := by
  cases v with
  | returnAddress => cases reference
  | _ => rfl

theorem plain_of_map {x : Except Fault α} {g : α → Value} (h : x.map g = .ok v)
    (plain : ∀ a, (g a).isReturnAddress = false) : v.isReturnAddress = false := by
  cases x with
  | error e => cases h
  | ok a =>
      cases h
      exact plain a

theorem plain_default (type : JType) : (defaultOf type).isReturnAddress = false := by
  cases type <;> rfl

theorem asReference_eq_ok (h : v.asReference = .ok w) : w = v := by
  unfold asReference at h
  split at h
  · exact (Except.ok.inj h).symm
  · split at h
    · exact (Except.ok.inj h).symm
    · cases h

/-- A value is one of some return addresses, if it is a return address at all. -/
def HeldBy (issued : List Nat) (v : Value) : Prop := ∀ pc, v = .returnAddress pc → pc ∈ issued

variable {issued issued' : List Nat}

theorem HeldBy.of_plain (plain : v.isReturnAddress = false) : v.HeldBy issued := by
  rintro pc rfl
  cases plain

theorem HeldBy.mono (held : v.HeldBy issued) (sub : issued ⊆ issued') : v.HeldBy issued' :=
  fun pc address => sub (held pc address)

/-- What is moved between a local variable and an operand is the value itself or a number. -/
theorem HeldBy.asLocal {kind : LocalKind} (held : v.HeldBy issued)
    (h : Exec.asLocal kind v = .ok w) : w.HeldBy issued := by
  cases kind with
  | reference => rwa [asReference_eq_ok h]
  | _ => exact .of_plain (plain_of_map h fun _ => rfl)

end Value

/-! ## The memory -/

/-- An entry holds no return address. -/
def Entry.Clean : Entry → Prop
  | .object _ slots => ∀ slot ∈ slots, slot.value.isReturnAddress = false
  | .array a => ∀ v ∈ a.elements, v.isReturnAddress = false

/-- No entry of a heap holds a return address. -/
def Heap.Clean (h : Heap) : Prop := ∀ r e, h.entry r = .ok e → e.Clean

/-- The memory of a world holds no return address. -/
structure World.Clean (w : World) : Prop where
  /-- The heap holds none. -/
  heap : w.heap.Clean
  /-- The static fields hold none. -/
  statics : ∀ (id : Nat) values, (w.classStates[id]?).map ClassState.statics = some values →
    ∀ v ∈ values, v.isReturnAddress = false

/-- Storing into a slot leaves the others alone. -/
theorem Slot.of_mem_store {f : FieldDecl} {v : Value} {s : Slot} : ∀ {slots : List Slot},
    s ∈ Slot.store f v slots → s ∈ slots ∨ s.value = v
  | [], h => nomatch h
  | t :: rest, h => by
      unfold store at h
      split at h
      · rcases List.mem_cons.mp h with rfl | below
        · exact .inr rfl
        · exact .inl (.tail _ below)
      · rcases List.mem_cons.mp h with rfl | below
        · exact .inl (.head _)
        · exact (of_mem_store below).imp_left (.tail _)

namespace Heap

variable {h h' : Heap} {e : Entry} {r : Handle} {v : Value}

/-- If every entry is an old one or a clean one, then the heap is clean. -/
theorem Clean.with_new (clean : h.Clean)
    (entries : ∀ {r e'}, h'.entry r = .ok e' → h.entry r = .ok e' ∨ e' = e) (new : e.Clean) :
    h'.Clean := fun r e' found => by
  rcases entries found with old | rfl
  · exact clean r e' old
  · exact new

theorem Clean.array (clean : h.Clean) {a : ArrayEntry} (found : h.array r = .ok a) :
    ∀ v ∈ a.elements, v.isReturnAddress = false := clean r (.array a) (array_eq_ok.mp found)

theorem Clean.getField (clean : h.Clean) {f : FieldDecl} (read : h.getField r f = .ok v) :
    v.isReturnAddress = false := by
  obtain ⟨cls, slots, slot, found, first, rfl⟩ := getField_ok read
  exact clean r _ found slot (List.mem_of_find?_eq_some first)

theorem Clean.loadElement (clean : h.Clean) {index : Int32}
    (read : h.loadElement r index = .ok (some v)) : v.isReturnAddress = false := by
  unfold Heap.loadElement at read
  cases found : h.array r with
  | error e => simp [found, bind, Except.bind] at read
  | ok a =>
      simp only [found, bind, Except.bind, pure, Except.pure, Except.ok.injEq] at read
      obtain ⟨i, -, taken⟩ := Option.bind_eq_some_iff.mp read
      exact clean.array found v (Array.mem_of_getElem? taken)

/-- An object is made with the defaults of its fields. -/
theorem Clean.fresh (clean : h.Clean) (arena : h.Arena) {cls : LoadedClass}
    {fields : List FieldDecl} {reserved : Bool}
    (made : h.allocateObject cls fields reserved = .ok (r, h')) : h'.Clean := by
  refine clean.with_new (arena.grown made).entry_cases fun slot listed => ?_
  obtain ⟨f, -, rfl⟩ := List.mem_map.mp listed
  exact Value.plain_default f.type

end Heap

/-- An element as an operand is the element itself or a number. -/
theorem Value.plain_operand {kind : ElementKind} {v w : Value} (plain : v.isReturnAddress = false)
    (h : Exec.elementOperand kind v = .ok w) : w.isReturnAddress = false := by
  unfold Exec.elementOperand at h
  split at h
  all_goals first
    | exact Value.plain_of_map h fun _ => rfl
    | exact Except.ok.inj h ▸ plain

/-- A number as another kind of number is a number. -/
theorem Value.plain_converted {source target : NumberKind} {v w : Value}
    (h : Exec.converted source target v = .ok w) : w.isReturnAddress = false := by
  have numbered {α : Type} {x : Except Fault α} {g : α → Value} (h : x >>= (pure ∘ g) = .ok w)
      (plain : ∀ a, (g a).isReturnAddress = false) : w.isReturnAddress = false :=
    plain_of_map (g := g) (x := x) (by cases x <;> exact h) plain
  unfold Exec.converted at h
  cases source <;> cases target <;> exact numbered h fun _ => rfl

namespace World

variable {w w' : World}

/-- A static field of a clean world holds no return address. -/
theorem Clean.getStatic (clean : w.Clean) (f : FieldRef) :
    (((w.classStates[f.owner.id]?).bind (·.statics[f.index]?)).getD
      (Value.defaultOf f.decl.type)).isReturnAddress = false := by
  cases held : (w.classStates[f.owner.id]?).bind (·.statics[f.index]?) with
  | none => exact Value.plain_default f.decl.type
  | some v =>
      obtain ⟨state, found, read⟩ := Option.bind_eq_some_iff.mp held
      exact clean.statics f.owner.id state.statics (by rw [found]; rfl) v (Array.mem_of_getElem? read)

/-- What is stored into an array is no return address. -/
theorem plain_element {kind : ElementKind} {descriptor : String} {operand v : Value}
    (converted : Exec.primitiveElement kind descriptor operand = .ok v)
    (fits : kind = .reference → w.Fits descriptor v) : v.isReturnAddress = false := by
  unfold Exec.primitiveElement at converted
  cases kind with
  | reference => exact Value.plain_of_reference (fits rfl).isReference
  | byte | boolean =>
      dsimp only at converted
      split at converted <;> exact Value.plain_of_map converted fun _ => rfl
  | _ => exact Value.plain_of_map converted fun _ => rfl

/-- Storing into a field is counted if it is a return address that is stored. -/
theorem plain_of_unleaked {lapses : Lapses} {v : Value}
    (unleaked : (lapses.leak v).leaks = lapses.leaks) : v.isReturnAddress = false := by
  cases v with
  | returnAddress => exact absurd unleaked (Nat.succ_ne_self _)
  | _ => rfl

theorem Stir.leaks_le (h : w.Stir w') : w.lapses.leaks ≤ w'.lapses.leaks := by
  cases h with
  | beside _ _ _ _ _ lapses => exact Nat.le_of_eq (congrArg Lapses.leaks lapses.symm)
  | field => exact Nat.le_add_right _ _
  | _ => exact Nat.le_refl _

/-- A change of the memory that leaks nothing leaves it clean. -/
theorem Stir.clean (h : w.Stir w') (arena : w.heap.Arena) (clean : w.Clean)
    (unleaked : w'.lapses.leaks = w.lapses.leaks) : w'.Clean := by
  obtain ⟨heap, statics⟩ := clean
  cases h with
  | beside _ same fields => exact ⟨same ▸ heap, fun id => fields id ▸ statics id⟩
  | remembered => exact ⟨heap, statics⟩
  | object _ made => exact ⟨heap.fresh arena made, statics⟩
  | @array kind _ _ _ _ _ made =>
      refine ⟨heap.with_new (arena.grown (Heap.allocateArray_ok made)).entry_cases
        fun v listed => ?_, statics⟩
      rw [Array.eq_of_mem_replicate listed]
      cases kind <;> rfl
  | characters units made =>
      refine ⟨heap.with_new (arena.grown made).entry_cases fun v listed => ?_, statics⟩
      obtain ⟨u, rfl⟩ := units v listed
      rfl
  | nested _ _ _ made =>
      refine ⟨heap.with_new (arena.grown made).entry_cases fun v listed => ?_, statics⟩
      obtain ⟨r, -, rfl⟩ := Array.mem_map.mp listed
      rfl
  | cloned made =>
      obtain ⟨a, source, made⟩ := Heap.cloneArray_ok made
      exact ⟨heap.with_new (arena.grown made).entry_cases (heap.array source), statics⟩
  | field _ stored =>
      obtain ⟨cls, slots, read, -, rfl⟩ := Heap.setField_ok stored
      refine ⟨heap.with_new Heap.entry_replace_cases fun slot listed => ?_, statics⟩
      rcases Slot.of_mem_store listed with old | new
      · exact heap _ _ read slot old
      · rw [new]
        exact plain_of_unleaked unleaked
  | element _ converted fits stored =>
      obtain ⟨a, read, ⟨-, rfl⟩ | ⟨i, -, rfl⟩⟩ := Heap.storeElement_ok stored
      · exact ⟨heap, statics⟩
      · refine ⟨heap.with_new Heap.entry_replace_cases fun v listed => ?_, statics⟩
        rcases Array.mem_or_eq_of_mem_setIfInBounds listed with old | rfl
        · exact heap.array read v old
        · exact plain_element converted fits
  | copied read written _ _ fits =>
      refine ⟨heap.with_new Heap.entry_replace_cases fun v listed => ?_, statics⟩
      rcases fits v listed with old | ⟨moved, -⟩
      · exact heap.array written v old
      · exact heap.array read v moved

end World

/-! ## Frames and their operands -/

/-- The local variables of a frame hold no return addresses but its own. -/
def Frame.Owns (f : Frame) : Prop := ∀ v ∈ f.locals, v.HeldBy f.issued

/-- Every frame holds no return addresses but its own, in its local variables and among its
operands. -/
inductive Frame.Own : List Frame → List Operand → Prop
  /-- Without a frame there are none. -/
  | outside {ops : List Operand} (held : ∀ o ∈ ops, o.value.HeldBy []) : Own [] ops
  /-- The operands above its base belong to the current frame, those below to the others. -/
  | inside {f : Frame} {rest : List Frame} {ops : List Operand} (reaches : f.stackBase ≤ ops.length)
      (owns : f.Owns) (held : ∀ o ∈ ops.drop f.stackBase, o.value.HeldBy f.issued)
      (under : Own rest (ops.take f.stackBase)) : Own (f :: rest) ops

theorem Frame.Owns.getLocal {f : Frame} (owns : f.Owns) {index : Nat} {v : Value}
    (h : f.getLocal index = .ok v) : v.HeldBy f.issued := by
  unfold Frame.getLocal at h
  split at h
  next found =>
    cases h
    exact owns v (Array.mem_of_getElem? found)
  next => cases h

/-- The second frame holds what the first one holds, and its operands begin at the same place. -/
structure Frame.Carries (f f' : Frame) : Prop where
  /-- The operands begin at the same place. -/
  stackBase : f'.stackBase = f.stackBase
  /-- The local variables are the same. -/
  locals : f'.locals = f.locals
  /-- It has pushed the same return addresses. -/
  issued : f'.issued = f.issued

theorem Frame.Carries.owns {f f' : Frame} (carries : f.Carries f') (owns : f.Owns) : f'.Owns := by
  rw [Frame.Owns, carries.locals, carries.issued]
  exact owns

theorem Operand.toList_take (operands : Array Operand) (size : Nat) :
    (operands.take size).toList = operands.toList.take size := by
  simp

namespace Frame.Own

variable {f f' : Frame} {rest : List Frame} {ops ops' : List Operand}

/-- The current frame was changed and its operands were reworked. -/
theorem rework (own : Own (f :: rest) ops) (base : f'.stackBase = f.stackBase)
    (reaches : f.stackBase ≤ ops'.length)
    (below : ops'.take f.stackBase = ops.take f.stackBase) (owns : f'.Owns)
    (held : ∀ o ∈ ops'.drop f.stackBase, o.value.HeldBy f'.issued) : Own (f' :: rest) ops' := by
  cases own with
  | inside _ _ _ under =>
      rw [← base] at reaches below held under
      exact .inside reaches owns held (below ▸ under)

end Frame.Own

namespace Thread

/-- The return addresses that the current frame has pushed, none without a frame. -/
def issued (t : Thread) : List Nat :=
  match t.frames with
  | f :: _ => f.issued
  | [] => []

theorem issued_of_cons {t : Thread} {f : Frame} {rest : List Frame} (h : t.frames = f :: rest) :
    t.issued = f.issued := by
  rw [issued, h]

/-- The frames of a thread hold no return addresses but their own. -/
def Owned (t : Thread) : Prop := Frame.Own t.frames t.operands.toList

namespace Owned

variable {t t' : Thread}

theorem reaches (owned : t.Owned) : t.stackBase ≤ t.operands.toList.length := by
  unfold Owned at owned
  unfold stackBase
  generalize t.frames = frames at owned
  cases owned with
  | outside => exact Nat.zero_le _
  | inside reaches => exact reaches

/-- The operands of the current frame hold no return addresses but its own. -/
theorem held (owned : t.Owned) : ∀ o ∈ t.frameOperands, o.value.HeldBy t.issued := by
  unfold Owned at owned
  unfold frameOperands stackBase issued
  generalize t.frames = frames at owned
  cases owned with
  | outside held => exact held
  | inside _ _ held => exact held

theorem owns (owned : t.Owned) {f : Frame} {rest : List Frame} (current : t.frames = f :: rest) :
    f.Owns := by
  unfold Owned at owned
  rw [current] at owned
  cases owned with
  | inside _ owns => exact owns

/-- The operands below those of the current frame belong to the others. -/
theorem under (owned : t.Owned) {f : Frame} {rest : List Frame} (current : t.frames = f :: rest) :
    Frame.Own rest (t.operands.toList.take f.stackBase) := by
  unfold Owned at owned
  rw [current] at owned
  cases owned with
  | inside _ _ _ under => exact under

/-- The current frame was changed, but not in what it holds. -/
theorem carry (owned : t.Owned) {f f' : Frame} {rest : List Frame}
    (current : t.frames = f :: rest) (carries : f.Carries f') : (t.setFrame f').Owned := by
  have reaches := owned.reaches
  have held := owned.held
  have owns := carries.owns (owned.owns current)
  rw [issued_of_cons current, ← carries.issued] at held
  rw [frameOperands] at held
  rw [stackBase, current] at reaches held
  unfold Owned at owned ⊢
  rw [current] at owned
  rw [setFrame, current]
  exact owned.rework carries.stackBase reaches rfl owns held

/-- The operands of the current frame were reworked. -/
theorem rework (owned : t.Owned) (frames : t'.frames = t.frames)
    (reaches : t.stackBase ≤ t'.operands.toList.length)
    (below : t'.operands.toList.take t.stackBase = t.operands.toList.take t.stackBase)
    (held : ∀ o ∈ t'.operands.toList.drop t.stackBase, o.value.HeldBy t.issued) : t'.Owned := by
  unfold Owned at owned ⊢
  rw [frames]
  unfold stackBase at reaches below held
  unfold issued at held
  generalize t.frames = frames' at owned reaches below held
  cases owned with
  | outside => exact .outside held
  | inside reach owns old under =>
      exact (Frame.Own.inside reach owns old under).rework rfl reaches below owns held

/-- An operand was pushed. -/
theorem push (owned : t.Owned) {o : Operand} (held : o.value.HeldBy t.issued) :
    (t.pushOperand o).Owned := by
  have reach := owned.reaches
  have pushed : (t.pushOperand o).operands.toList = t.operands.toList ++ [o] := Array.toList_push
  refine rework owned (rfl : (t.pushOperand o).frames = _) ?_ ?_ fun o' listed => ?_
  all_goals rw [pushed] at *
  · rw [List.length_append]
    omega
  · rw [List.take_append_of_le_length reach]
  · rw [List.drop_append_of_le_length reach] at listed
    rcases List.mem_append.mp listed with old | new
    · exact owned.held o' old
    · rw [List.mem_singleton.mp new]
      exact held

/-- A frame was entered whose local variables hold no return addresses. -/
theorem enter (owned : t.Owned) {f : Frame} (base : f.stackBase = t.operands.toList.length)
    (plain : ∀ v ∈ f.locals, v.isReturnAddress = false) : (t.pushFrame f).Owned := by
  refine .inside (Nat.le_of_eq base) (fun v listed => .of_plain (plain v listed)) ?_ ?_
  · rw [show (t.pushFrame f).operands = t.operands from rfl, base, List.drop_length]
    exact nofun
  · rw [show (t.pushFrame f).operands = t.operands from rfl, base, List.take_length]
    exact owned

end Owned

end Thread

/-! ## Machines -/

namespace Machine

/-- The number of return addresses that have leaked. -/
def leaks (m : Machine) : Nat := m.world.lapses.leaks + m.thread.leaks

/-- The frames of a machine hold no return addresses but their own, and its memory holds none. -/
structure Tight (m : Machine) : Prop where
  /-- Each frame holds its own. -/
  thread : m.thread.Owned
  /-- The memory holds none. -/
  world : m.world.Clean

/-- Seen from a heap with its books in order, a tight machine stayed tight, or there were leaks. -/
abbrev Confined : Machine → Machine → Prop := Upheld (·.world.heap.Arena) leaks Tight

variable {m : Machine}

/-- Whatever is done to the memory confines return addresses. -/
theorem confined_world {w : World} (stirs : m.world.Stirs w) :
    m.Confined { m with world := w } := by
  intro arena
  have upheld : Upheld (·.heap.Arena) (·.lapses.leaks) World.Clean m.world w :=
    stirs.upheld fun stir arena => ⟨stir.arena arena, stir.leaks_le, fun unleaked clean =>
      stir.clean arena clean unleaked⟩
  obtain ⟨ordered, counted, kept⟩ := upheld arena
  exact ⟨ordered, Nat.add_le_add_right counted _, fun unleaked tight =>
    ⟨tight.thread, kept (Nat.add_right_cancel unleaked) tight.world⟩⟩

/-- A change of the thread confines return addresses if its frames own theirs. -/
theorem confined_thread {t : Thread} (counted : m.thread.leaks ≤ t.leaks)
    (owned : t.leaks = m.thread.leaks → m.Tight → t.Owned) : m.Confined { m with thread := t } :=
  fun arena => ⟨arena, Nat.add_le_add_left counted _, fun unleaked tight =>
    ⟨owned (Nat.add_left_cancel unleaked) tight, tight.world⟩⟩

end Machine

end JavaMachine
