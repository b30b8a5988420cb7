import JavaMachine.Proofs.Addresses
import JavaMachine.Proofs.Pairs

/-!
# The share of the current frame

All frames of a thread share one operand stack, and each of them knows where its own operands
begin.  An instruction works on the share of the current frame only.  `Reworked` says this of two
operand stacks: they agree below a base, and what lies above it was popped, pushed or shuffled
there.  The tags are part of it.  Whatever is pushed gets the address of the current instruction,
and whatever else is in the share afterwards was there before; so for every property that an
operand with this address does not have, the share has no more operands with the property than
before.

`Machine.SameFrames` lifts this to machines whose frames are the same, and `Machine.Within` to
machines whose current frame has moved on in its instruction.  Both say nothing about a machine
whose current frame begins above the top of the stack, which is why they are kept by every operation
without a condition.  `Machine.WithinSameMonitors` is finer than `Machine.Within`: of the world only
the memory has changed, and no frame has entered or exited a monitor.  What an operation does to
operands or to the current frame is stated for every relation that allows it, and these are
instances.
-/

namespace JavaMachine

/-! ## Two operand stacks -/

/-- A test that no operand with a tag passes. -/
def Foreign (tag : Nat) (p : Operand → Bool) : Prop := ∀ o, o.pushedAt = tag → p o = false

/-- The second operand stack is the first one with the operands from a base on popped, pushed and
shuffled by an instruction at an address. -/
structure Reworked (base tag : Nat) (ops ops' : List Operand) : Prop where
  /-- The base is still there. -/
  reaches : base ≤ ops'.length
  /-- Nothing below it has changed. -/
  below : ops'.take base = ops.take base
  /-- What is new above it has the tag. -/
  tags : ∀ p, Foreign tag p → (ops'.drop base).countP p ≤ (ops.drop base).countP p

namespace Reworked

variable {base tag : Nat} {ops ops' ops'' : List Operand}

theorem refl (h : base ≤ ops.length) : Reworked base tag ops ops := ⟨h, rfl, fun _ _ => Nat.le_refl _⟩

theorem trans (first : Reworked base tag ops ops') (second : Reworked base tag ops' ops'') :
    Reworked base tag ops ops'' where
  reaches := second.reaches
  below := second.below.trans first.below
  tags p hp := Nat.le_trans (second.tags p hp) (first.tags p hp)

/-- Replacing a top part of the share. -/
theorem of_append {kept old new : List Operand} (hbase : base ≤ kept.length)
    (htags : ∀ p, Foreign tag p → new.countP p ≤ old.countP p) :
    Reworked base tag (kept ++ old) (kept ++ new) where
  reaches := by rw [List.length_append]; omega
  below := by rw [List.take_append_of_le_length hbase, List.take_append_of_le_length hbase]
  tags p hp := by
    rw [List.drop_append_of_le_length hbase, List.drop_append_of_le_length hbase,
      List.countP_append, List.countP_append]
    exact Nat.add_le_add_left (htags p hp) _

/-- Pushing operands with the tag. -/
theorem push (h : base ≤ ops.length) {new : List Operand} (hnew : ∀ o ∈ new, o.pushedAt = tag) :
    Reworked base tag ops (ops ++ new) := by
  have none : ∀ p, Foreign tag p → new.countP p = 0 := fun p hp =>
    List.countP_eq_zero.mpr fun o ho => by simp [hp o (hnew o ho)]
  have whole : Reworked base tag (ops ++ []) (ops ++ new) :=
    of_append h fun p hp => Nat.le_of_eq (none p hp)
  rwa [List.append_nil] at whole

/-- Popping operands down to some height. -/
theorem take {n : Nat} (h : base ≤ ops.length) (hn : base ≤ n) :
    Reworked base tag ops (ops.take n) := by
  have hbase : base ≤ (ops.take n).length := by rw [List.length_take]; omega
  have whole : Reworked base tag (ops.take n ++ ops.drop n) (ops.take n ++ []) :=
    of_append hbase fun p _ => Nat.zero_le _
  rwa [List.append_nil, List.take_append_drop] at whole

end Reworked

/-! ## Two states of a frame -/

/-- The second frame is the first one later in the same instruction. -/
structure Frame.Later (f f' : Frame) : Prop where
  /-- The class is the same. -/
  cls : f'.cls = f.cls
  /-- The method is the same. -/
  method : f'.method = f.method
  /-- The operands begin at the same place. -/
  stackBase : f'.stackBase = f.stackBase
  /-- The instruction is the same. -/
  instructionPc : f'.instructionPc = f.instructionPc
  /-- The next byte is not behind the end of the code. -/
  pc : f.pc ≤ f.codeLength → f'.pc ≤ f'.codeLength
  /-- Longs and doubles among the local variables have their second slots. -/
  paired : f.Paired → f'.Paired

namespace Frame.Later

theorem refl (f : Frame) : f.Later f := ⟨rfl, rfl, rfl, rfl, id, id⟩

theorem trans {f f' f'' : Frame} (first : f.Later f') (second : f'.Later f'') : f.Later f'' where
  cls := second.cls.trans first.cls
  method := second.method.trans first.method
  stackBase := second.stackBase.trans first.stackBase
  instructionPc := second.instructionPc.trans first.instructionPc
  pc := second.pc ∘ first.pc
  paired := second.paired ∘ first.paired

end Frame.Later

/-- The second frame is the first one later in the same instruction, and has entered and exited no
monitor in between. -/
structure Frame.Onward (f f' : Frame) : Prop extends Frame.Later f f' where
  /-- The monitors are the same. -/
  monitors : f'.monitors = f.monitors

theorem Frame.setLocal_onward {f f' : Frame} {index : Nat} {v : Value}
    (h : f.setLocal index v = .ok f') : f.Onward f' := by
  have paired := setLocal_paired h
  unfold setLocal at h
  split at h
  · cases h
  · cases h
    exact ⟨⟨rfl, rfl, rfl, rfl, id, paired⟩, rfl⟩

theorem Frame.setLocal_issued {f f' : Frame} {index : Nat} {v : Value}
    (h : f.setLocal index v = .ok f') : f'.issued = f.issued := by
  unfold setLocal at h
  split at h
  · cases h
  · cases h
    rfl

/-- What a frame stores into a local variable is one of its own return addresses, if it is one. -/
theorem Frame.Owns.setLocal {f f' : Frame} {index : Nat} {v : Value} (owns : f.Owns)
    (held : v.HeldBy f.issued) (h : f.setLocal index v = .ok f') : f'.Owns := by
  have null : Value.null.HeldBy f.issued := .of_plain rfl
  unfold Frame.setLocal at h
  split at h
  · cases h
  · cases h
    intro w listed
    rcases Array.mem_or_eq_of_mem_setIfInBounds listed with old | rfl
    · split at old
      · rcases Array.mem_or_eq_of_mem_setIfInBounds old with old | rfl
        · exact owns w old
        · exact null
      · exact owns w old
    · exact held

/-- The second frame is the first one later in the same instruction, and if the first one holds no
return addresses but its own, then so does the second one. -/
structure Frame.Moves (f f' : Frame) : Prop extends Frame.Onward f f' where
  /-- The local variables hold no return addresses but those of the frame. -/
  owns : f.Owns → f'.Owns
  /-- The return addresses of the frame are its own still. -/
  issued : f.issued ⊆ f'.issued

theorem Frame.jump_moves {f f' : Frame} {target : Nat} (h : f.jump target = .ok f') :
    f.Moves f' := by
  unfold jump at h
  split at h
  next inside =>
    cases h
    exact ⟨⟨⟨rfl, rfl, rfl, rfl, fun _ => Nat.le_of_lt inside, id⟩, rfl⟩, id,
      List.Subset.refl _⟩
  next => cases h

theorem Frame.branch_moves {f f' : Frame} {offset : Int32} (h : f.branch offset = .ok f') :
    f.Moves f' := by
  unfold branch at h
  simp only at h
  split at h
  · cases h
  · exact jump_moves h

theorem Frame.advance_moves {f f' : Frame} {count : Nat} (h : f.advance count = .ok f') :
    f.Moves f' := by
  unfold advance at h
  split at h
  next fits =>
    cases h
    exact ⟨⟨⟨rfl, rfl, rfl, rfl, fun _ => of_decide_eq_true fits, id⟩, rfl⟩, id,
      List.Subset.refl _⟩
  next => cases h

theorem Frame.readBytes_moves {f f' : Frame} {count n : Nat}
    (h : f.readBytes count = .ok (n, f')) : f.Moves f' := by
  unfold readBytes at h
  cases next : f.advance count with
  | error e => rw [next] at h; cases h
  | ok g =>
      rw [next] at h
      cases h
      exact advance_moves next

theorem Frame.setLocal_moves {f f' : Frame} {index : Nat} {v : Value}
    (plain : v.isReturnAddress = false) (h : f.setLocal index v = .ok f') : f.Moves f' :=
  ⟨setLocal_onward h, fun owns => owns.setLocal (.of_plain plain) h,
    (setLocal_issued h).symm ▸ List.Subset.refl _⟩

theorem Frame.issue_moves (f : Frame) (pc : Nat) : f.Moves (f.issue pc) where
  toOnward := ⟨⟨rfl, rfl, rfl, rfl, id, id⟩, rfl⟩
  owns owns v listed := (owns v listed).mono (List.subset_cons_self pc f.issued)
  issued := List.subset_cons_self pc f.issued

/-- The second list of frames is the first one, or the first one with its current frame later in
the same instruction. -/
inductive Frame.Ahead : List Frame → List Frame → Prop
  | same (frames : List Frame) : Ahead frames frames
  | moved {f f' : Frame} (rest : List Frame) : f.Later f' → Ahead (f :: rest) (f' :: rest)

namespace Frame.Ahead

theorem of_cons {f : Frame} {rest fs : List Frame} (h : Ahead (f :: rest) fs) :
    ∃ f', fs = f' :: rest ∧ f.Later f' := by
  cases h with
  | same => exact ⟨f, rfl, .refl f⟩
  | @moved _ f' _ later => exact ⟨f', rfl, later⟩

theorem trans {fs fs' fs'' : List Frame} (first : Ahead fs fs') (second : Ahead fs' fs'') :
    Ahead fs fs'' := by
  cases first with
  | same => exact second
  | moved rest h =>
      cases second with
      | same => exact .moved rest h
      | moved _ h' => exact .moved rest (h.trans h')

end Frame.Ahead

/-! ## Two machines -/

namespace Machine

/-- Between two machines only the current frame has moved on and its operands were reworked. -/
structure Within (m m' : Machine) : Prop where
  /-- The current frame has moved on, the others are the same. -/
  frames : Frame.Ahead m.frames m'.frames
  /-- The operands of the current frame were reworked. -/
  operands : m.base ≤ m.operands.length → Reworked m.base m.tag m.operands m'.operands
  /-- The depth counters are the same. -/
  depths : m'.thread.depths = m.thread.depths
  /-- As many runs are in progress. -/
  level : m'.thread.level = m.thread.level
  /-- No deeper stack of frames has been seen. -/
  deepest : m'.thread.deepest = m.thread.deepest
  /-- No run was left without its value. -/
  bare : m'.thread.bare = m.thread.bare
  /-- A halted machine stays halted. -/
  halted : m.world.halted = true → m'.world.halted = true

/-- Between two machines only the operands of the current frame were reworked. -/
structure SameFrames (m m' : Machine) : Prop extends Within m m' where
  /-- The frames are the same. -/
  frames_eq : m'.frames = m.frames

/-- Between two machines only the operands of the current frame were reworked, and no monitor was
entered or exited. -/
structure SameFramesMonitors (m m' : Machine) : Prop extends SameFrames m m' where
  /-- The thread is the same one. -/
  id : m'.thread.id = m.thread.id
  /-- No monitor was exited that its frame had not entered. -/
  strays : m'.thread.strays = m.thread.strays
  /-- The monitors are the same. -/
  monitors : m'.world.monitors = m.world.monitors

/-- The monitors that the frames have entered, those of the current frame first. -/
abbrev held (m : Machine) : List (List MonitorKey) := m.frames.map Frame.monitors

/-- Between two machines no instruction was started while the machine was halted.  If the first one
is halted, then so is the second one, and as many instructions were started. -/
structure Frozen (m m' : Machine) : Prop where
  /-- A halted machine stays halted. -/
  halted : m.world.halted = true → m'.world.halted = true
  /-- It starts no instruction. -/
  executed : m.world.halted = true → m'.thread.executed = m.thread.executed
  /-- No instruction was started later than it may. -/
  late : m'.thread.late = m.thread.late

theorem Frozen.refl (m : Machine) : m.Frozen m := ⟨id, fun _ => rfl, rfl⟩

theorem Frozen.trans {a b c : Machine} (first : a.Frozen b) (second : b.Frozen c) : a.Frozen c where
  halted := second.halted ∘ first.halted
  executed halted := (second.executed (first.halted halted)).trans (first.executed halted)
  late := second.late.trans first.late

/-- A machine that is not halted may start an instruction. -/
theorem frozen_tick {m : Machine} (running : m.world.halted = false) :
    m.Frozen { m with thread := m.thread.tick m.world.halted } where
  halted halted := halted
  executed halted := absurd halted (by simp [running])
  late := by simp [Thread.tick, running]

/-- Between two machines only the current frame has moved on and its operands were reworked, no
frame has entered or exited a monitor, and the memory was stirred. -/
structure WithinSameMonitors (m m' : Machine) : Prop extends Within m m' where
  /-- The thread is the same one. -/
  id : m'.thread.id = m.thread.id
  /-- No monitor was entered or exited. -/
  held : m'.held = m.held
  /-- No monitor was exited that its frame had not entered. -/
  strays : m'.thread.strays = m.thread.strays
  /-- No instruction was started while the machine was halted. -/
  frozen : m.Frozen m'
  /-- The memory was stirred. -/
  world : m.world.StirsMemory m'.world
  /-- Return addresses stayed in their frames. -/
  confined : m.Confined m'

end Machine

theorem Thread.stackBase_of_cons {t : Thread} {f : Frame} {rest : List Frame}
    (h : t.frames = f :: rest) : t.stackBase = f.stackBase := by
  rw [stackBase, h]

theorem Thread.instructionPc_of_cons {t : Thread} {f : Frame} {rest : List Frame}
    (h : t.frames = f :: rest) : t.instructionPc = f.instructionPc := by
  rw [instructionPc, h]

theorem Thread.stackBase_of_ahead {t t' : Thread} (h : Frame.Ahead t.frames t'.frames) :
    t'.stackBase = t.stackBase := by
  unfold stackBase
  generalize t.frames = fs, t'.frames = fs' at h
  cases h with
  | same => rfl
  | moved rest later => exact later.stackBase

theorem Thread.instructionPc_of_ahead {t t' : Thread} (h : Frame.Ahead t.frames t'.frames) :
    t'.instructionPc = t.instructionPc := by
  unfold instructionPc
  generalize t.frames = fs, t'.frames = fs' at h
  cases h with
  | same => rfl
  | moved rest later => exact later.instructionPc

namespace Machine

/-- A machine with other operands. -/
def withOperands (m : Machine) (operands : Array Operand) : Machine :=
  { m with thread := { m.thread with operands } }

/-- The operands of the current frame were reworked, and nothing else has changed. -/
theorem within_of_reworked {m : Machine} {operands : Array Operand}
    (h : m.base ≤ m.operands.length → Reworked m.base m.tag m.operands operands.toList) :
    m.Within (m.withOperands operands) :=
  ⟨.same _, h, rfl, rfl, rfl, rfl, id⟩

/-- The current frame has moved on and its operands were reworked, and nothing else has changed. -/
theorem within_of_later {m : Machine} {f f' : Frame} {rest : List Frame} {operands : Array Operand}
    (current : m.thread.frames = f :: rest) (later : f.Later f')
    (h : m.base ≤ m.operands.length → Reworked m.base m.tag m.operands operands.toList) :
    m.Within { m with thread := { m.thread.setFrame f' with operands } } := by
  refine ⟨?_, h, rfl, rfl, rfl, rfl, id⟩
  simp only [Machine.frames, Thread.setFrame, current, List.tail_cons]
  exact .moved rest later

theorem Within.refl (m : Machine) : m.Within m :=
  ⟨.same _, fun h => .refl h, rfl, rfl, rfl, rfl, id⟩

theorem Within.trans {a b c : Machine} (first : a.Within b) (second : b.Within c) :
    a.Within c where
  frames := first.frames.trans second.frames
  operands h := by
    have middle := first.operands h
    have base : b.base = a.base := Thread.stackBase_of_ahead first.frames
    have tag : b.tag = a.tag := Thread.instructionPc_of_ahead first.frames
    have last := second.operands (by rw [base]; exact middle.reaches)
    rw [base, tag] at last
    exact middle.trans last
  depths := second.depths.trans first.depths
  level := second.level.trans first.level
  deepest := second.deepest.trans first.deepest
  bare := second.bare.trans first.bare
  halted := second.halted ∘ first.halted

end Machine

/-- A relation between machines that allows the operands of the current frame to be reworked. -/
class AllowsOperands (R : Machine → Machine → Prop) : Prop extends AllowsWorld R where
  /-- The operands of the current frame may be reworked.  It holds no return addresses but its own. -/
  operands : ∀ {m : Machine} {operands : Array Operand},
    (m.base ≤ m.operands.length → Reworked m.base m.tag m.operands operands.toList) →
    (m.Tight → ∀ o ∈ operands.toList.drop m.base, o.value.HeldBy m.thread.issued) →
    R m (m.withOperands operands)

/-- A relation between machines that also allows the current frame to move on. -/
class AllowsFrame (R : Machine → Machine → Prop) : Prop extends AllowsOperands R where
  /-- The current frame may move on, and its operands may be reworked.  It holds no return addresses
  but its own. -/
  frame : ∀ {m : Machine} {f f' : Frame} {rest : List Frame} {operands : Array Operand},
    m.thread.frames = f :: rest → f.Onward f' →
    (m.base ≤ m.operands.length → Reworked m.base m.tag m.operands operands.toList) →
    (m.Tight → f'.Owns ∧ ∀ o ∈ operands.toList.drop m.base, o.value.HeldBy f'.issued) →
    R m { m with thread := { m.thread.setFrame f' with operands } }

/-- The current frame may move on by itself. -/
theorem AllowsFrame.move {R : Machine → Machine → Prop} [AllowsFrame R] {m : Machine}
    {f f' : Frame} {rest : List Frame} (current : m.thread.frames = f :: rest) (moves : f.Moves f') :
    R m { m with thread := m.thread.setFrame f' } := by
  show R m { m with thread := { m.thread.setFrame f' with operands := m.thread.operands } }
  refine frame current moves.toOnward .refl fun tight => ?_
  refine ⟨moves.owns (tight.thread.owns current), fun o listed => ?_⟩
  have held := tight.thread.held o listed
  rw [Thread.issued_of_cons current] at held
  exact held.mono moves.issued

namespace Machine

instance : AllowsFrame Within where
  refl := Within.refl
  trans _ _ _ := Within.trans
  world stirs := ⟨.same _, fun h => .refl h, rfl, rfl, rfl, rfl, stirs.halted⟩
  operands reworked _ := within_of_reworked reworked
  frame current onward reworked _ := within_of_later current onward.toLater reworked

instance : AllowsRaise Within where
  raise _ := ⟨.same _, fun h => .refl h, rfl, rfl, rfl, rfl, id⟩

instance : AllowsMemory Within where
  memory sameClasses := ⟨.same _, fun h => .refl h, rfl, rfl, rfl, rfl, sameClasses.halted⟩

instance : AllowsOperands SameFrames where
  refl m := ⟨.refl m, rfl⟩
  trans _ _ _ first second :=
    ⟨first.toWithin.trans second.toWithin, second.frames_eq.trans first.frames_eq⟩
  world stirs := ⟨AllowsWorld.world stirs, rfl⟩
  operands reworked _ := ⟨within_of_reworked reworked, rfl⟩

instance : AllowsRaise SameFrames where
  raise pending := ⟨AllowsRaise.raise pending, rfl⟩

instance : AllowsOperands SameFramesMonitors where
  refl m := ⟨Std.Refl.refl m, rfl, rfl, rfl⟩
  trans _ _ _ first second :=
    { toSameFrames := IsTrans.trans _ _ _ first.toSameFrames second.toSameFrames
      id := second.id.trans first.id
      strays := second.strays.trans first.strays
      monitors := second.monitors.trans first.monitors }
  world stirs := ⟨AllowsWorld.world stirs, rfl, rfl, stirs.monitors⟩
  operands reworked held := ⟨AllowsOperands.operands reworked held, rfl, rfl, rfl⟩

instance : AllowsRaise SameFramesMonitors where
  raise pending := ⟨AllowsRaise.raise pending, rfl, rfl, rfl⟩

instance : AllowsMemory SameFramesMonitors where
  memory sameClasses := ⟨⟨AllowsMemory.memory sameClasses, rfl⟩, rfl, rfl, sameClasses.monitors⟩

/-- What a frame does to its operands and to itself confines return addresses. -/
theorem confined_rework {m : Machine} {f f' : Frame} {rest : List Frame} {operands : Array Operand}
    (current : m.thread.frames = f :: rest) (base : f'.stackBase = f.stackBase)
    (reworked : m.base ≤ m.operands.length → Reworked m.base m.tag m.operands operands.toList)
    (held : m.Tight → f'.Owns ∧ ∀ o ∈ operands.toList.drop m.base, o.value.HeldBy f'.issued) :
    m.Confined { m with thread := { m.thread.setFrame f' with operands } } := by
  refine confined_thread (Nat.le_refl _) fun _ tight => ?_
  have own := tight.thread
  have same : m.base = f.stackBase := Thread.stackBase_of_cons current
  obtain ⟨reaches, below, -⟩ := reworked own.reaches
  obtain ⟨owns, held⟩ := held tight
  rw [Thread.Owned, current] at own
  rw [same] at reaches below held
  rw [Thread.Owned, Thread.setFrame, current]
  exact own.rework base reaches below owns held

instance : AllowsFrame WithinSameMonitors where
  refl m := ⟨.refl m, rfl, rfl, rfl, .refl m, .refl _, Std.Refl.refl m⟩
  trans _ _ _ first second :=
    { toWithin := first.toWithin.trans second.toWithin
      id := second.id.trans first.id
      held := second.held.trans first.held
      strays := second.strays.trans first.strays
      frozen := first.frozen.trans second.frozen
      world := first.world.trans second.world
      confined := IsTrans.trans _ _ _ first.confined second.confined }
  world stirs :=
    ⟨AllowsWorld.world stirs, rfl, rfl, rfl, ⟨stirs.halted, fun _ => rfl, rfl⟩, stirs,
      confined_world stirs.stirs⟩
  operands reworked held :=
    { toWithin := within_of_reworked reworked
      id := rfl
      held := rfl
      strays := rfl
      frozen := ⟨id, fun _ => rfl, rfl⟩
      world := .refl _
      confined := confined_thread (Nat.le_refl _) fun _ tight =>
        have ⟨reaches, below, _⟩ := reworked tight.thread.reaches
        tight.thread.rework rfl reaches below (held tight) }
  frame current onward reworked held :=
    { toWithin := within_of_later current onward.toLater reworked
      id := rfl
      held := by
        simp only [Machine.held, Machine.frames, Thread.setFrame, current, List.tail_cons,
          List.map_cons, onward.monitors]
      strays := rfl
      frozen := ⟨id, fun _ => rfl, rfl⟩
      world := .refl _
      confined := confined_rework current onward.stackBase reworked held }

instance : AllowsRaise WithinSameMonitors where
  raise pending :=
    ⟨AllowsRaise.raise pending, rfl, rfl, rfl, ⟨id, fun _ => rfl, rfl⟩, .refl _,
      confined_thread (Nat.le_refl _) fun _ tight => tight.thread⟩

theorem sameStacks_tick {m : Machine} :
    m.SameStacks { m with thread := m.thread.tick m.world.halted } :=
  ⟨rfl, rfl, rfl, rfl, rfl, rfl, id⟩

/-- A machine that is not halted may start an instruction by itself. -/
theorem withinSameMonitors_tick {m : Machine} (running : m.world.halted = false) :
    m.WithinSameMonitors { m with thread := m.thread.tick m.world.halted } :=
  ⟨⟨.same _, fun h => .refl h, rfl, rfl, rfl, rfl, id⟩, rfl, rfl, rfl, frozen_tick running, .refl _,
    confined_thread (Nat.le_refl _) fun _ tight => tight.thread⟩

theorem SameStacks.sameFrames {m m' : Machine} (h : m.SameStacks m') : m.SameFrames m' where
  frames := by rw [h.frames]; exact .same _
  operands reaches := by rw [h.operands]; exact .refl reaches
  depths := h.depths
  level := h.level
  deepest := h.deepest
  bare := h.bare
  halted := h.halted
  frames_eq := h.frames

theorem SameThread.sameFrames {m m' : Machine} (h : m.SameThread m') : m.SameFrames m' :=
  h.sameStacks.sameFrames

theorem SameThreadMonitors.sameFramesMonitors {m m' : Machine} (h : m.SameThreadMonitors m') :
    m.SameFramesMonitors m' where
  toSameFrames := h.sameFrames
  id := congrArg Thread.id h.thread
  strays := congrArg Thread.strays h.thread
  monitors := h.monitors

end Machine

/-! ## Well-formed threads -/

/-- What is the case of every thread: its frames share the operand stack in their order, and none
of them has left its code. -/
structure Thread.WellFormed (t : Thread) : Prop where
  /-- The operands of a frame do not begin below those of the frame under it. -/
  ordered : t.frames.Pairwise fun upper lower => lower.stackBase ≤ upper.stackBase
  /-- The operands of a frame begin on the stack. -/
  reached : ∀ f ∈ t.frames, f.stackBase ≤ t.operands.size
  /-- The next byte of a frame is not behind the end of its code. -/
  inside : ∀ f ∈ t.frames, f.pc ≤ f.codeLength
  /-- The largest number of frames so far is not smaller than the present one. -/
  marked : t.frames.length ≤ t.deepest

/-! ## Operands -/

/-- An operand that is popped was the top one, and the base is still reached without it. -/
theorem Thread.popOperand_eq_ok {t t' : Thread} {o : Operand} (h : t.popOperand = .ok (o, t')) :
    t.operands.toList = t'.operands.toList ++ [o] ∧ t.stackBase ≤ t'.operands.toList.length ∧
      t' = { t with operands := t.operands.pop } := by
  unfold popOperand at h
  split at h
  · cases h
  next nonzero =>
    split at h
    next top =>
      cases h
      have last : t.operands.toList.getLast? = some o := by rw [← top, Array.getLast?_toList]
      obtain ⟨below, split⟩ := List.getLast?_eq_some_iff.mp last
      have size : t.operands.size = below.length + 1 := by
        rw [← Array.length_toList, split, List.length_append, List.length_singleton]
      refine ⟨?_, ?_, rfl⟩
      · rw [Array.toList_pop, split, List.dropLast_concat]
      · rw [Array.toList_pop, split, List.dropLast_concat]
        unfold operandDepth at nonzero
        omega
    next => cases h

namespace Exec

variable {α : Type} {s : Settings} {m m' : Machine}

theorem onThread_of_ok {f : Thread → Except Fault (α × Thread)} {a : α} {t : Thread}
    (h : f m.thread = .ok (a, t)) : onThread f s m = .ok a { m with thread := t } := by
  simp only [onThread, bind_of_ok (x := get) (s := s) (m := m) rfl, h]
  rfl

theorem onThread_of_error {f : Thread → Except Fault (α × Thread)} {e : Fault}
    (h : f m.thread = .error e) : onThread f s m = .error (.fault e) m := by
  simp only [onThread, bind_of_ok (x := get) (s := s) (m := m) rfl, h]
  rfl

/-- What an operation of the thread does to it is what it does to the machine. -/
theorem onThread_keeps {R : Machine → Machine → Prop} [IsPreorder Machine R]
    {f : Thread → Except Fault (α × Thread)}
    (hf : ∀ (m : Machine) a t, f m.thread = .ok (a, t) → R m { m with thread := t }) :
    Keeps R (onThread f) := by
  intro s m
  cases h : f m.thread with
  | ok result =>
      obtain ⟨a, t⟩ := result
      rw [after_of_ok (onThread_of_ok h)]
      exact hf m a t h
  | error e =>
      rw [after_of_error (onThread_of_error h)]
      exact Std.Refl.refl m

theorem Keeps.sameFrames {x : Exec α} (hx : Keeps Machine.SameStacks x) :
    Keeps Machine.SameFrames x :=
  hx.mono fun _ _ => Machine.SameStacks.sameFrames

theorem Keeps.within {x : Exec α} (hx : Keeps Machine.SameFrames x) : Keeps Machine.Within x :=
  hx.mono fun _ _ => Machine.SameFrames.toWithin

theorem push_reworked {v : Value} (reaches : m.base ≤ m.operands.length) :
    Reworked m.base m.tag m.operands (m.thread.push v).operands.toList := by
  have pushed : (m.thread.push v).operands.toList = m.operands ++ [⟨v, m.tag⟩] := Array.toList_push
  rw [pushed]
  exact .push reaches fun o ho => by rw [List.mem_singleton.mp ho]

theorem push_within (v : Value) : Keeps Machine.Within (push v) :=
  fun _ _ => Machine.within_of_reworked push_reworked

variable {R : Machine → Machine → Prop}

section Operands

variable [AllowsOperands R]

/-- A value is pushed that is one of the return addresses of the current frame, if it is one. -/
theorem push_after {v : Value} (held : m.Tight → v.HeldBy m.thread.issued) :
    R m ((push v).after s m) := by
  refine AllowsOperands.operands push_reworked fun tight => ?_
  have reaches := tight.thread.reaches
  intro o listed
  rw [Array.toList_push, List.drop_append_of_le_length reaches] at listed
  rcases List.mem_append.mp listed with old | new
  · exact tight.thread.held o old
  · rw [List.mem_singleton.mp new]
    exact held tight

theorem push_keeps {v : Value} (plain : v.isReturnAddress = false) : Keeps R (push v) :=
  fun _ _ => push_after fun _ => .of_plain plain

theorem truncate_allowed {size : Nat} (h : m.base ≤ m.operands.length → m.base ≤ size) :
    R m { m with thread := m.thread.truncate size } := by
  refine AllowsOperands.operands (fun reaches => ?_) fun tight o listed => tight.thread.held o ?_
  · rw [Operand.toList_take]
    exact .take reaches (h reaches)
  · rw [Operand.toList_take, List.drop_take] at listed
    exact List.mem_of_mem_take listed

theorem popOperand_keeps : Keeps R popOperand := by
  refine onThread_keeps fun m o t h => ?_
  obtain ⟨split, reaches, rfl⟩ := Thread.popOperand_eq_ok h
  refine AllowsOperands.operands (fun _ => ?_) fun tight o listed => tight.thread.held o ?_
  · rw [Machine.operands, split]
    have whole : Reworked m.base m.tag (m.thread.operands.pop.toList ++ [o])
        (m.thread.operands.pop.toList ++ []) := .of_append reaches fun p _ => Nat.zero_le _
    rwa [List.append_nil] at whole
  · rw [Thread.frameOperands, split, List.drop_append_of_le_length reaches]
    exact List.mem_append_left _ listed

theorem pop_keeps : Keeps R pop := popOperand_keeps.bind fun _ => .pure _

theorem popInt_keeps : Keeps R popInt := pop_keeps.bind fun _ => .ofExcept _

theorem popLong_keeps : Keeps R popLong := pop_keeps.bind fun _ => .ofExcept _

theorem popFloat_keeps : Keeps R popFloat := pop_keeps.bind fun _ => .ofExcept _

theorem popDouble_keeps : Keeps R popDouble := pop_keeps.bind fun _ => .ofExcept _

theorem dropTo_keeps (depth : Nat) : Keeps R (dropTo depth) := fun _ _ =>
  truncate_allowed fun _ => Nat.le_add_right _ _

theorem rewind_keeps (pc : Nat) : Keeps R (rewind pc) := by
  intro s m
  refine truncate_allowed fun reaches => ?_
  have bound : m.thread.countFrom pc ≤ m.operands.length - m.base := by
    unfold Thread.countFrom Thread.frameOperands
    refine Nat.le_trans (List.takeWhile_sublist _).length_le (Nat.le_of_eq ?_)
    rw [List.length_reverse, List.length_drop]
  rw [Array.length_toList] at bound reaches
  omega

end Operands

/-! ## The current frame -/

/-- What an operation of the current frame does to it is what it does to the machine. -/
theorem onFrame_moves [IsPreorder Machine R] {f : Frame → Except Fault (α × Frame)}
    (hf : ∀ (m : Machine) g rest a g', m.thread.frames = g :: rest → f g = .ok (a, g') →
      R m { m with thread := m.thread.setFrame g' }) : Keeps R (onFrame f) := by
  refine onThread_keeps fun m a t h => ?_
  unfold Thread.frame at h
  cases frames : m.thread.frames with
  | nil => rw [frames] at h; cases h
  | cons g rest =>
      rw [frames] at h
      cases moved : f g with
      | error e => simp only [bind, Except.bind, moved] at h; cases h
      | ok result =>
          obtain ⟨b, g'⟩ := result
          simp only [bind, Except.bind, moved, pure, Except.pure] at h
          cases h
          exact hf m g rest a g' frames moved

theorem moveFrame_of_ok {f : Frame → Except Fault Frame} {g g' : Frame} {rest : List Frame}
    (current : m.thread.frames = g :: rest) (h : f g = .ok g') :
    moveFrame f s m = .ok () { m with thread := { m.thread with frames := g' :: rest } } := by
  unfold moveFrame onFrame
  refine onThread_of_ok ?_
  simp only [Thread.frame, Thread.setFrame, current, bind, Except.bind, h, pure, Except.pure,
    List.tail_cons]

theorem frame_of_cons {g : Frame} {rest : List Frame} (current : m.thread.frames = g :: rest) :
    frame s m = .ok g m := by
  rw [frame, bind_of_ok thread_run, Thread.frame, current]
  rfl

theorem frame_of_nil (empty : m.thread.frames = []) :
    frame s m = .error (.fault .noActiveFrame) m := by
  rw [frame, bind_of_ok thread_run, Thread.frame, empty]
  rfl

theorem frame_eq_ok {g : Frame} (h : frame s m = .ok g m') :
    m' = m ∧ ∃ rest, m.thread.frames = g :: rest := by
  rw [frame, bind_of_ok thread_run] at h
  obtain ⟨found, rfl⟩ := ofExcept_eq_ok h
  unfold Thread.frame at found
  split at found
  next current =>
    cases found
    exact ⟨rfl, _, current⟩
  next => cases found

theorem moveFrame_moves [IsPreorder Machine R] {f : Frame → Except Fault Frame}
    (hf : ∀ (m : Machine) g rest g', m.thread.frames = g :: rest → f g = .ok g' →
      R m { m with thread := m.thread.setFrame g' }) : Keeps R (moveFrame f) := by
  refine onFrame_moves fun m g rest a g' current h => ?_
  cases moved : f g with
  | error e => simp only [bind, Except.bind, moved] at h; cases h
  | ok next =>
      simp only [bind, Except.bind, moved, pure, Except.pure] at h
      cases h
      exact hf m g rest g' current moved

/-- What comes to a relation from some machine on does so behind a move of the frame, if it does so
wherever that ends. -/
theorem moveFrame_after {start : Machine} {f : Frame → Except Fault Frame} (stopped : R start m)
    (moved : ∀ g rest g', m.thread.frames = g :: rest → f g = .ok g' →
      R start { m with thread := { m.thread with frames := g' :: rest } }) :
    R start ((moveFrame f).after s m) := by
  cases current : m.thread.frames with
  | nil =>
      rw [moveFrame, onFrame, after_of_error (onThread_of_error (by rw [Thread.frame, current]; rfl))]
      exact stopped
  | cons g rest =>
      cases taken : f g with
      | ok g' =>
          rw [after_of_ok (moveFrame_of_ok current taken)]
          exact moved g rest g' current taken
      | error e =>
          rw [moveFrame, onFrame, after_of_error (onThread_of_error (e := e) (by
            simp [Thread.frame, current, bind, Except.bind, taken]))]
          exact stopped

theorem moveFrame_keeps [AllowsFrame R] {f : Frame → Except Fault Frame}
    (hf : ∀ g g', f g = .ok g' → g.Moves g') : Keeps R (moveFrame f) :=
  moveFrame_moves fun _ g _ g' current h => AllowsFrame.move current (hf g g' h)

theorem moveFrame_within {f : Frame → Except Fault Frame}
    (hf : ∀ g g', f g = .ok g' → g.Later g') : Keeps Machine.Within (moveFrame f) :=
  moveFrame_moves fun _ g _ g' current h => Machine.within_of_later current (hf g g' h) .refl

section Frames

variable [AllowsFrame R]

theorem readBytes_keeps (count : Nat) : Keeps R (onFrame (·.readBytes count)) :=
  onFrame_moves fun _ _ _ _ _ current h => AllowsFrame.move current (Frame.readBytes_moves h)

theorem readU8_keeps : Keeps R readU8 := (readBytes_keeps 1).bind fun _ => .pure _

theorem readI8_keeps : Keeps R readI8 := readU8_keeps.bind fun _ => .pure _

theorem readU16_keeps : Keeps R readU16 := (readBytes_keeps 2).bind fun _ => .pure _

theorem readI16_keeps : Keeps R readI16 := readU16_keeps.bind fun _ => .pure _

theorem readI32_keeps : Keeps R readI32 := (readBytes_keeps 4).bind fun _ => .pure _

theorem jump_keeps (target : Nat) : Keeps R (moveFrame (·.jump target)) :=
  moveFrame_keeps fun _ _ => Frame.jump_moves

theorem setLocal_keeps (slot : Nat) {v : Value} (plain : v.isReturnAddress = false) :
    Keeps R (moveFrame (·.setLocal slot v)) :=
  moveFrame_keeps fun _ _ => Frame.setLocal_moves plain

end Frames

theorem setLocal_within (slot : Nat) (v : Value) :
    Keeps Machine.Within (moveFrame (·.setLocal slot v)) :=
  moveFrame_within fun _ _ h => (Frame.setLocal_onward h).toLater

theorem countStray_within (k : MonitorKey) : Keeps Machine.Within (countStray k) := by
  intro s m
  simp only [countStray, after, modifyThread_run]
  split
  · exact .refl m
  · exact ⟨.same _, fun h => .refl h, rfl, rfl, rfl, rfl, id⟩

theorem pushMonitor_within (k : MonitorKey) : Keeps Machine.Within (pushMonitor k) := by
  refine frame_keeps.bind fun _ => ?_
  refine (enterMonitor_sameThread k).sameStacks.sameFrames.within.bind fun _ => ?_
  exact moveFrame_within fun g g' h => by cases h; exact ⟨rfl, rfl, rfl, rfl, id, id⟩

theorem popMonitor_within (k : MonitorKey) : Keeps Machine.Within (popMonitor k) := by
  refine Keeps.bind (moveFrame_within fun g g' h => ?_) fun _ =>
    (exitMonitor_sameThread k).sameStacks.sameFrames.within
  cases h
  exact ⟨rfl, rfl, rfl, rfl, id, id⟩

end Exec

end JavaMachine
