import JavaMachine.Proofs.Invariants

/-!
# What a call leaves alone

A call runs on top of the frames of its caller, and a run leaves as many frames as it has counted.
This module shows that a call therefore leaves the frames below it and their operands alone,
however it ends, and that it closes what it has opened.

There is one exception.  The handling of an exception takes for granted that the run has a frame
left.  A method that is called while an exception is pending, and that returns at once, has none:
then the frame of the caller itself is taken for one of the run.  Natives that call methods only
while no exception is pending are never in this case.  `Discipline.slack` is the number of frames
of the caller that a run may touch, none for such natives and one for others, and all that follows
is said of both.

`Above` says which frames and operands belong to a run, and `Counts` how its counter compares with
the number of its frames.  Both are kept by the moves of an instruction, by turns and by runs.
When the machine is halted, runs inside leave their frames where they are, so that the counter is
only a lower bound then.
-/

namespace JavaMachine

open Relation (ReflTransGen)

/-! ## The frames of a run -/

/-- The number of frames of its caller that a run may touch. -/
def Discipline.slack (d : Discipline) : Nat := if d.clear then 0 else 1

theorem Discipline.slack_of_clear {d : Discipline} (h : d.clear = true) : d.slack = 0 := by
  rw [slack, if_pos h]

theorem Discipline.slack_of_not_clear {d : Discipline} (h : ¬ d.clear = true) : d.slack = 1 := by
  rw [slack, if_neg h]

/-- Natives never go on after a call that has taken a frame of its caller for its own: they call
methods only while no exception is pending, or they pass on the faults of their calls. -/
def Discipline.Sound (d : Discipline) : Prop := d.clear = true ∨ d.passes = true

/-- The number of operands below those of the topmost of some frames. -/
def Frame.floor : List Frame → Nat
  | f :: _ => f.stackBase
  | [] => 0

/-- The address of the instruction of the topmost of some frames. -/
def Frame.mark : List Frame → Nat
  | f :: _ => f.instructionPc
  | [] => 0

theorem Thread.stackBase_eq_floor {t : Thread} {fs : List Frame} (h : t.frames = fs) :
    t.stackBase = Frame.floor fs := by
  subst h
  unfold stackBase Frame.floor
  cases t.frames <;> rfl

theorem Thread.instructionPc_eq_mark {t : Thread} {fs : List Frame} (h : t.frames = fs) :
    t.instructionPc = Frame.mark fs := by
  subst h
  unfold instructionPc Frame.mark
  cases t.frames <;> rfl

namespace Machine

/-- Some frames lie on top of others, and their operands lie on top of some that are kept. -/
structure Above (low : List Frame) (kept : List Operand) (own : List Frame) (m : Machine) :
    Prop where
  /-- The frames lie on top of the others. -/
  frames : m.frames = own ++ low
  /-- None of them begins among the operands that are kept. -/
  apart : ∀ f ∈ own, kept.length ≤ f.stackBase
  /-- Those are still there. -/
  operands : kept <+: m.operands

/-- The counter of a run is at most the number of its frames, and exactly this number if natives
pass on faults, unless the machine is halted. -/
structure Counts (d : Discipline) (outer : List Nat) (own : List Frame) (n : Nat) (m : Machine) :
    Prop where
  /-- The counter is the innermost one. -/
  depths : m.thread.depths = n :: outer
  /-- There are enough frames. -/
  enough : n + d.slack ≤ own.length
  /-- There are no others. -/
  exact : d.passes = true → m.world.halted = false → own.length = n + d.slack

namespace Above

variable {low own own' : List Frame} {kept : List Operand} {m m' : Machine}

theorem base_le (h : m.Above low kept own) (seat : own ≠ [] ∨ kept.length ≤ Frame.floor low) :
    kept.length ≤ m.base := by
  rw [Machine.base, Thread.stackBase_eq_floor h.frames]
  cases own with
  | nil =>
      obtain nonempty | seat := seat
      · exact absurd rfl nonempty
      · exact seat
  | cons f own => exact h.apart f List.mem_cons_self

/-- Other frames, and operands that are the same up to some height. -/
theorem rework (h : m.Above low kept own) (frames : m'.frames = own' ++ low)
    (apart : ∀ f ∈ own', kept.length ≤ f.stackBase) {height : Nat} (le : kept.length ≤ height)
    (same : m'.operands.take height = m.operands.take height) : m'.Above low kept own' where
  frames := frames
  apart := apart
  operands := by
    have lower : kept <+: m.operands.take height := List.prefix_take_iff.mpr ⟨h.operands, le⟩
    rw [← same] at lower
    exact lower.trans (List.take_prefix _ _)

theorem take (h : m.Above low kept own) (height : Nat) : m.Above low (kept.take height) own where
  frames := h.frames
  apart f hf := by
    rw [List.length_take]
    have := h.apart f hf
    omega
  operands := (List.take_prefix _ _).trans h.operands

theorem sameFrames (h : m.Above low kept own) (seat : own ≠ [] ∨ kept.length ≤ Frame.floor low)
    (wf : m.thread.WellFormed) (same : m.SameFrames m') : m'.Above low kept own :=
  h.rework (same.frames_eq.trans h.frames) h.apart (h.base_le seat) (same.operands wf.base_le).below

theorem sameStacks (h : m.Above low kept own) (same : m.SameStacks m') : m'.Above low kept own where
  frames := same.frames.trans h.frames
  apart := h.apart
  operands := by rw [same.operands]; exact h.operands

theorem pushes {f : Frame} (h : m.Above low kept own) (pushes : Pushes f m m') :
    m'.Above low kept (f :: own) where
  frames := by rw [pushes.frames, h.frames, List.cons_append]
  apart g hg := by
    cases hg with
    | head =>
        rw [pushes.base]
        exact h.operands.length_le
    | tail _ lower => exact h.apart g lower
  operands := by rw [pushes.operands]; exact h.operands

/-- What lies on top of some of the frames lies on top of those below them. -/
theorem lift (h : m.Above low kept own) (seat : own ≠ [] ∨ kept.length ≤ Frame.floor low)
    (wf : m.thread.WellFormed) {k : Nat} (room : k ≤ own.length) {new : List Frame}
    (spared : m'.Above (m.frames.drop k) (m.operands.take m.base) new) :
    m'.Above low kept (new ++ own.drop k) := by
  have taken : (m.operands.take m.base).length = m.base := by
    rw [List.length_take]
    exact Nat.min_eq_left wf.base_le
  refine h.rework ?_ (fun f hf => ?_) (h.base_le seat) ?_
  · rw [spared.frames, h.frames, List.drop_append_of_le_length room, List.append_assoc]
  · obtain hf | hf := List.mem_append.mp hf
    · have apart := spared.apart f hf
      rw [taken] at apart
      exact Nat.le_trans (h.base_le seat) apart
    · exact h.apart f (List.mem_of_mem_drop hf)
  · have split := List.prefix_iff_eq_take.mp spared.operands
    rw [taken] at split
    exact split.symm

end Above

/-- A machine that is not halted was not halted before. -/
theorem running_before {m m' : Machine} (h : m.world.halted = true → m'.world.halted = true)
    (running : m'.world.halted = false) : m.world.halted = false :=
  Bool.eq_false_iff.mpr fun halted => Bool.eq_false_iff.mp running (h halted)

/-- When some frames are left, what remains of the operands is what the frame below them has made
of others. -/
def Retains (low : List Frame) (ops : List Operand) (own : List Frame) (m : Machine) : Prop :=
  Reworked (Frame.floor low) (Frame.mark low) ops
    (m.operands.take (Frame.roof m.operands.length own))

theorem retains_nil {low : List Frame} {ops : List Operand} {m : Machine} :
    m.Retains low ops [] ↔ Reworked (Frame.floor low) (Frame.mark low) ops m.operands := by
  rw [Retains, Frame.roof, List.foldl_nil, List.take_length]

end Machine

/-- The lowest of some frames is one of a method and begins at some height. -/
def Frame.Grounded (height : Nat) (decl : MethodDecl) (own : List Frame) : Prop :=
  ∃ upper f, own = upper ++ [f] ∧ f.stackBase = height ∧ f.method = decl

theorem Frame.grounded_of_ne_nil {own : List Frame} (h : own ≠ []) :
    ∃ height decl, Frame.Grounded height decl own := by
  obtain ⟨upper, f, rfl⟩ := List.eq_nil_or_concat own |>.resolve_left h
  exact ⟨f.stackBase, f.method, upper, f, List.concat_eq_append, rfl, rfl⟩

theorem Frame.Grounded.append {height : Nat} {decl : MethodDecl} {own : List Frame}
    (h : Frame.Grounded height decl own) (more : List Frame) :
    Frame.Grounded height decl (more ++ own) := by
  obtain ⟨upper, f, rfl, base, method⟩ := h
  exact ⟨more ++ upper, f, by rw [List.append_assoc], base, method⟩

theorem Frame.Grounded.ne_nil {height : Nat} {decl : MethodDecl} {own : List Frame}
    (h : Frame.Grounded height decl own) : own ≠ [] := by
  obtain ⟨upper, f, rfl, -⟩ := h
  simp

theorem Frame.Grounded.tail {height : Nat} {decl : MethodDecl} {f : Frame} {rest : List Frame}
    (h : Frame.Grounded height decl (f :: rest)) :
    rest = [] ∧ f.stackBase = height ∧ f.method = decl ∨ Frame.Grounded height decl rest := by
  obtain ⟨upper, g, split, base, method⟩ := h
  cases upper with
  | nil =>
      cases split
      exact .inl ⟨rfl, base, method⟩
  | cons _ upper =>
      cases split
      exact .inr ⟨upper, g, rfl, base, method⟩

section Grounded

variable {height : Nat} {decl : MethodDecl} {low own : List Frame} {m : Machine}

/-- In a well-formed thread the operands of some frames lie above the height at which the lowest
of them begins. -/
theorem Frame.Grounded.above (h : Frame.Grounded height decl own) (wf : m.thread.WellFormed)
    (frames : m.frames = own ++ low) : m.Above low (m.operands.take height) own := by
  obtain ⟨upper, f, rfl, rfl, -⟩ := h
  have ordered := wf.ordered
  rw [show m.thread.frames = upper ++ [f] ++ low from frames, List.append_assoc,
    List.pairwise_append] at ordered
  refine ⟨frames, fun g hg => ?_, List.take_prefix _ _⟩
  rw [List.length_take]
  obtain hg | hg := List.mem_append.mp hg
  · exact Nat.le_trans (Nat.min_le_left _ _) (ordered.2.2 g hg f (by simp))
  · rw [List.mem_singleton.mp hg]
    exact Nat.min_le_left _ _

theorem Frame.Grounded.roof_eq (h : Frame.Grounded height decl own) (wf : m.thread.WellFormed)
    (frames : m.frames = own ++ low) : Frame.roof m.operands.length own = height := by
  obtain ⟨upper, f, rfl, rfl, -⟩ := h
  have ordered := wf.ordered
  rw [show m.thread.frames = upper ++ [f] ++ low from frames, List.append_assoc,
    List.pairwise_append] at ordered
  have reached := wf.reached f (by rw [show m.thread.frames = _ from frames]; simp)
  exact Frame.roof_concat (fun g hg => ordered.2.2 g hg f (by simp))
    (by rwa [Array.length_toList])

theorem Frame.Grounded.height_le (h : Frame.Grounded height decl own) (wf : m.thread.WellFormed)
    (frames : m.frames = own ++ low) : height ≤ m.operands.length := by
  rw [← h.roof_eq wf frames]
  exact Frame.roof_le _ _

/-- The frames below begin below that height. -/
theorem Frame.Grounded.floor_le (h : Frame.Grounded height decl own) (wf : m.thread.WellFormed)
    (frames : m.frames = own ++ low) : Frame.floor low ≤ height := by
  obtain ⟨upper, f, rfl, rfl, -⟩ := h
  cases low with
  | nil => exact Nat.zero_le _
  | cons g low =>
      have ordered := wf.ordered
      rw [show m.thread.frames = upper ++ [f] ++ g :: low from frames,
        List.pairwise_append] at ordered
      exact ordered.2.2 f (by simp) g (by simp)

end Grounded

/-! ## What calls and runs are expected to leave alone -/

/-- A run between two turns. -/
structure Machine.Running (d : Discipline) (low : List Frame) (kept : List Operand)
    (outer : List Nat) (own : List Frame) (n : Nat) (m : Machine) : Prop
    extends m.Above low kept own, m.Counts d outer own n where
  /-- The run has a frame of its own, unless it may touch one of its caller. -/
  begun : d.clear = true → 1 ≤ n

theorem Machine.Running.ne_nil {d : Discipline} {low own : List Frame} {kept : List Operand}
    {outer : List Nat} {n : Nat} {m : Machine} (h : m.Running d low kept outer own n) :
    own ≠ [] := by
  rintro rfl
  have enough := h.enough
  rw [List.length_nil] at enough
  by_cases clear : d.clear = true
  · have begun := h.begun clear
    omega
  · rw [Discipline.slack_of_not_clear clear] at enough
    omega

/-- After a run those frames are left on top of some others that the run may have touched.  If
natives pass on faults, no others are, unless the machine is halted. -/
structure Machine.Spared (d : Discipline) (low : List Frame) (kept : List Operand)
    (own : List Frame) (m : Machine) : Prop extends m.Above low kept own where
  /-- Those frames are left. -/
  slack : d.slack ≤ own.length
  /-- No others are. -/
  exact : d.passes = true → m.world.halted = false → own.length = d.slack

/-- Either the current frame is one that a run may touch, or its operands lie above those that are
kept. -/
theorem seat_of_slack {d : Discipline} {low own : List Frame} {kept : List Operand} {height : Nat}
    (room : d.slack ≤ own.length) (low_le : d.clear = true → height ≤ Frame.floor low) :
    own ≠ [] ∨ (kept.take height).length ≤ Frame.floor low := by
  by_cases clear : d.clear = true
  · have lower := low_le clear
    rw [List.length_take]
    omega
  · left
    rintro rfl
    rw [Discipline.slack_of_not_clear clear, List.length_nil] at room
    omega

/-- What is done through the ways back into a machine spares the caller. -/
structure Reentry.Spares (d : Discipline) (r : Reentry) : Prop where
  /-- A call that has a result leaves all of its frames and closes its counter. -/
  call : ∀ {cls : LoadedClass} {decl : MethodDecl} {args : List Value} {s : Settings}
    {m m' : Machine} {i : Invocation}, m.thread.WellFormed → d.slack ≤ m.frames.length →
    d.Ready m → r.call cls decl args s m = .ok i m' →
    ∃ own, m'.Spared d (m.frames.drop d.slack) (m.operands.take m.base) own ∧
      m'.thread.depths = m.thread.depths ∧ m'.thread.level = m.thread.level ∧
      (d = .strict → m'.Retains m.frames m.operands own)
  /-- A call that stops in a fault closes its counter. -/
  callStop : ∀ {cls : LoadedClass} {decl : MethodDecl} {args : List Value} {s : Settings}
    {m m' : Machine} {stop : Stop}, m.thread.WellFormed → d.slack ≤ m.frames.length →
    d.Ready m → r.call cls decl args s m = .error stop m' →
    ∃ own, m'.Above (m.frames.drop d.slack) (m.operands.take m.base) own ∧
      ((∃ e, stop = .fault e) →
        m'.thread.depths = m.thread.depths ∧ m'.thread.level = m.thread.level)
  /-- A run that has an outcome leaves all of its frames. -/
  run : ∀ {low own : List Frame} {kept : List Operand} {outer : List Nat} {n height : Nat}
    {decl : MethodDecl} {s : Settings} {m m' : Machine} {o : RunOutcome},
    m.thread.WellFormed → d.Ready m → m.Running d low kept outer own n →
    (d.clear = true → Frame.Grounded kept.length decl own ∧ height ≤ Frame.floor low) →
    r.run s m = .ok o m' →
    ∃ own', m'.Spared d low (kept.take height) own' ∧ (∃ n', m'.thread.depths = n' :: outer) ∧
      m'.thread.level = m.thread.level ∧ (d = .strict → m'.Retains low kept own')
  /-- A run that stops in a fault has still its counter. -/
  runStop : ∀ {low own : List Frame} {kept : List Operand} {outer : List Nat} {n height : Nat}
    {s : Settings} {m m' : Machine} {stop : Stop},
    m.thread.WellFormed → d.Ready m → m.Running d low kept outer own n →
    (d.clear = true → height ≤ Frame.floor low) → r.run s m = .error stop m' →
    ∃ own', m'.Above low (kept.take height) own' ∧
      ((∃ e, stop = .fault e) →
        (∃ n', m'.thread.depths = n' :: outer) ∧ m'.thread.level = m.thread.level)

/-! ## Moves -/

/-- How the frames on top of others change with the machine. -/
structure Machine.Moved (d : Discipline) (low : List Frame) (m : Machine) (own : List Frame)
    (m' : Machine) (own' : List Frame) : Prop where
  /-- The frames are on top of the same others. -/
  frames : m'.frames = own' ++ low
  /-- What lies below their operands is kept. -/
  above : ∀ {kept}, m.Above low kept own → (own ≠ [] ∨ kept.length ≤ Frame.floor low) →
    m'.Above low kept own'
  /-- As many runs are in progress. -/
  level : m'.thread.level = m.thread.level
  /-- Not all of them are left. -/
  stays : own ≠ [] → own' ≠ []
  /-- The frames that a run may touch are still there. -/
  slack : d.slack ≤ own.length → d.slack ≤ own'.length
  /-- The counter has counted them. -/
  counts : ∀ {outer n}, m.Counts d outer own n →
    ∃ n', n ≤ n' ∧ m'.Counts d outer own' n'
  /-- The lowest of them is still there. -/
  ground : d.clear = true → ∀ {height decl}, Frame.Grounded height decl own →
    Frame.Grounded height decl own'
  /-- What remains of the operands when they are left was reworked. -/
  retains : d = .strict → ∀ {ops}, m.Retains low ops own → m'.Retains low ops own'

namespace Machine.Moved

variable {d : Discipline} {low own own' own'' : List Frame} {m m' m'' : Machine}

theorem refl (frames : m.frames = own ++ low) : Moved d low m own m own :=
  ⟨frames, fun above _ => above, rfl, id, id, fun {_ n} counts => ⟨n, Nat.le_refl n, counts⟩,
    fun _ _ _ ground => ground, fun _ _ retains => retains⟩

theorem trans (first : Moved d low m own m' own') (second : Moved d low m' own' m'' own'') :
    Moved d low m own m'' own'' where
  frames := second.frames
  above above seat := by
    refine second.above (first.above above seat) ?_
    obtain nonempty | lower := seat
    · exact .inl (first.stays nonempty)
    · exact .inr lower
  level := second.level.trans first.level
  stays := second.stays ∘ first.stays
  slack := second.slack ∘ first.slack
  counts counts := by
    obtain ⟨n', le, counts'⟩ := first.counts counts
    obtain ⟨n'', le', counts''⟩ := second.counts counts'
    exact ⟨n'', Nat.le_trans le le', counts''⟩
  ground clear _ _ ground := second.ground clear (first.ground clear ground)
  retains strict _ retains := second.retains strict (first.retains strict retains)

/-- What remains of the operands when frames are left is what lies below the lowest of them. -/
theorem retains_of_ground {ops : List Operand} (wf : m.thread.WellFormed)
    (wf' : m'.thread.WellFormed) (frames : m.frames = own ++ low) (frames' : m'.frames = own' ++ low)
    (above : ∀ {kept}, m.Above low kept own → m'.Above low kept own')
    (ground : ∀ {height decl}, Frame.Grounded height decl own → Frame.Grounded height decl own')
    (nonempty : own ≠ []) (h : m.Retains low ops own) : m'.Retains low ops own' := by
  obtain ⟨height, decl, grounded⟩ := Frame.grounded_of_ne_nil nonempty
  have kept := (above (grounded.above wf frames)).operands
  have length : (m.operands.take height).length = height := by
    rw [List.length_take]
    exact Nat.min_eq_left (grounded.height_le wf frames)
  have same : m.operands.take height = m'.operands.take height := by
    have split := List.prefix_iff_eq_take.mp kept
    rwa [length] at split
  unfold Retains at h ⊢
  rw [grounded.roof_eq wf frames] at h
  rw [(ground grounded).roof_eq wf' frames', ← same]
  exact h

end Machine.Moved

namespace Exec

variable {d : Discipline} {r : Reentry} {host : Host} {level : Nat} {s : Settings}
  {m m' : Machine} {low own : List Frame}

theorem sameFrames_moved (wf : m.thread.WellFormed) (wf' : m'.thread.WellFormed)
    (frames : m.frames = own ++ low) (sameFrames : m.SameFrames m') : m.Moved d low own m' own := by
  have above {kept : List Operand} (above : m.Above low kept own)
      (seat : own ≠ [] ∨ kept.length ≤ Frame.floor low) : m'.Above low kept own :=
    above.sameFrames seat wf sameFrames
  have frames' : m'.frames = own ++ low := sameFrames.frames_eq.trans frames
  refine ⟨frames', above, sameFrames.level, id, id, fun {outer n} counts => ⟨n, Nat.le_refl n, ?_⟩,
    fun _ _ _ ground => ground, fun _ ops retains => ?_⟩
  · exact ⟨sameFrames.depths.trans counts.depths, counts.enough, fun pass running =>
      counts.exact pass (Machine.running_before sameFrames.halted running)⟩
  · by_cases nonempty : own = []
    · subst nonempty
      rw [Machine.retains_nil] at retains ⊢
      have reworked := sameFrames.operands wf.base_le
      rw [Machine.base, Machine.tag, Thread.stackBase_eq_floor frames,
        Thread.instructionPc_eq_mark frames] at reworked
      exact retains.trans reworked
    · exact Machine.Moved.retains_of_ground wf wf' frames frames'
        (fun kept => above kept (.inl nonempty)) id nonempty retains

/-- What a call has left on top of the frames that it may not touch. -/
theorem spared_moved {new : List Frame} (wf : m.thread.WellFormed) (wf' : m'.thread.WellFormed)
    (frames : m.frames = own ++ low) (room : d.slack ≤ own.length)
    (spared : m'.Above (m.frames.drop d.slack) (m.operands.take m.base) new)
    (enough : d.slack ≤ new.length) (depths : m'.thread.depths = m.thread.depths)
    (level : m'.thread.level = m.thread.level)
    (exact : d.passes = true → m'.world.halted = false →
      new.length = d.slack ∧ m.world.halted = false)
    (retains : d = .strict → m'.Retains m.frames m.operands new) :
    m.Moved d low own m' (new ++ own.drop d.slack) := by
  have lower : m.frames.drop d.slack = own.drop d.slack ++ low := by
    rw [frames, List.drop_append_of_le_length room]
  have frames' : m'.frames = new ++ own.drop d.slack ++ low := by
    rw [spared.frames, lower, List.append_assoc]
  have length : (new ++ own.drop d.slack).length = new.length + (own.length - d.slack) := by
    rw [List.length_append, List.length_drop]
  have above {kept : List Operand} (above : m.Above low kept own)
      (seat : own ≠ [] ∨ kept.length ≤ Frame.floor low) :
      m'.Above low kept (new ++ own.drop d.slack) := above.lift seat wf room spared
  have stays : own ≠ [] → new ++ own.drop d.slack ≠ [] := fun nonempty empty => by
    have none : (new ++ own.drop d.slack).length = 0 := by rw [empty, List.length_nil]
    have some := List.length_pos_iff.mpr nonempty
    omega
  have ground (clear : d.clear = true) {height : Nat} {decl : MethodDecl}
      (ground : Frame.Grounded height decl own) :
      Frame.Grounded height decl (new ++ own.drop d.slack) := by
    rw [Discipline.slack_of_clear clear, List.drop_zero]
    exact ground.append new
  refine ⟨frames', above, level, stays, fun _ => by omega,
    fun {outer n} counts => ⟨n, Nat.le_refl n, ?_⟩, ground, fun strict ops before => ?_⟩
  · have before := counts.enough
    refine ⟨depths.trans counts.depths, by omega, fun pass running => ?_⟩
    obtain ⟨exact, running⟩ := exact pass running
    have whole := counts.exact pass running
    omega
  · by_cases nonempty : own = []
    · subst nonempty
      have after := retains strict
      rw [Machine.retains_nil] at before
      rw [List.drop_nil, List.append_nil]
      rw [show m.frames = low from frames] at after
      exact before.trans after
    · exact Machine.Moved.retains_of_ground wf wf' frames frames'
        (fun kept => above kept (.inl nonempty)) (ground (by rw [strict])) nonempty before

theorem act_moved (sound : d.Sound) (hs : r.Spares d) (hu : r.Upholds d)
    (wf : m.thread.WellFormed) (frames : m.frames = own ++ low) (room : d.slack ≤ own.length)
    (h : Act d r s m m') :
    ∃ own', m.Moved d low own m' own' ∧ m'.thread.depths = m.thread.depths := by
  have wf' := (act_upkeep hu h).wellFormed wf
  have fits : d.slack ≤ m.frames.length := by rw [frames, List.length_append]; omega
  cases h with
  | work sameFrames => exact ⟨own, sameFrames_moved wf wf' frames sameFrames, sameFrames.depths⟩
  | call ready called =>
      have upkeep : m.Upkeep s.config.maxFrames m' := after_of_ok called ▸ hu.call _ _ _ s m ready
      obtain ⟨new, spared, depths, level, retains⟩ := hs.call wf fits ready called
      exact ⟨_, spared_moved wf wf' frames room spared.toAbove spared.slack depths level
        (fun pass running =>
          ⟨spared.exact pass running, Machine.running_before upkeep.halted running⟩) retains, depths⟩
  | caught catches ready called =>
      -- what such a call leaves on top is not counted
      have fails : ¬ d.passes = true := by rw [catches]; simp
      have clear : d.clear = true := sound.resolve_right fails
      obtain ⟨new, above, closed⟩ := hs.callStop wf fits ready called
      obtain ⟨depths, level⟩ := closed ⟨_, rfl⟩
      refine ⟨_, spared_moved wf wf' frames room above ?_ depths level
        (fun pass => absurd pass fails) (fun strict => absurd (by rw [strict]) fails), depths⟩
      rw [Discipline.slack_of_clear clear]
      exact Nat.zero_le _

theorem acts_moved (sound : d.Sound) (hs : r.Spares d) (hu : r.Upholds d)
    (wf : m.thread.WellFormed) (frames : m.frames = own ++ low) (room : d.slack ≤ own.length)
    (h : ReflTransGen (Act d r s) m m') :
    ∃ own', m.Moved d low own m' own' ∧ m'.thread.depths = m.thread.depths := by
  induction h with
  | refl => exact ⟨own, .refl frames, rfl⟩
  | tail steps last ih =>
      obtain ⟨mid, moved, depths⟩ := ih
      have wf' := (Machine.Upkeep.of_steps (fun _ _ => act_upkeep hu) steps).wellFormed wf
      obtain ⟨own', moved', depths'⟩ :=
        act_moved sound hs hu wf' moved.frames (moved.slack room) last
      exact ⟨own', moved.trans moved', depths'.trans depths⟩

/-- Another current frame of the same method that begins at the same place. -/
theorem current_moved {f f' : Frame} {rest : List Frame} (wf : m.thread.WellFormed)
    (wf' : m'.thread.WellFormed) (frames : m.frames = f :: rest ++ low)
    (frames' : m'.frames = f' :: rest ++ low) (base : f'.stackBase = f.stackBase)
    (method : f'.method = f.method)
    (operands : m'.operands.take f.stackBase = m.operands.take f.stackBase)
    (depths : m'.thread.depths = m.thread.depths) (level : m'.thread.level = m.thread.level)
    (halted : m.world.halted = true → m'.world.halted = true) :
    m.Moved d low (f :: rest) m' (f' :: rest) := by
  have above {kept : List Operand} (above : m.Above low kept (f :: rest)) :
      m'.Above low kept (f' :: rest) := by
    refine above.rework frames' (fun g hg => ?_) (above.apart f List.mem_cons_self) operands
    cases hg with
    | head =>
        rw [base]
        exact above.apart f List.mem_cons_self
    | tail _ lower => exact above.apart g (List.mem_cons_of_mem f lower)
  have ground {height : Nat} {decl : MethodDecl} (ground : Frame.Grounded height decl (f :: rest)) :
      Frame.Grounded height decl (f' :: rest) := by
    obtain ⟨upper, g, split, base', method'⟩ := ground
    cases upper with
    | nil =>
        cases split
        exact ⟨[], f', rfl, base.trans base', method.trans method'⟩
    | cons _ upper =>
        cases split
        exact ⟨f' :: upper, g, rfl, base', method'⟩
  refine ⟨frames', fun kept _ => above kept, level, by simp, by simp,
    fun {outer n} counts => ⟨n, Nat.le_refl n, ?_⟩, fun _ _ _ => ground, fun _ ops retains => ?_⟩
  · exact ⟨depths.trans counts.depths, counts.enough, fun pass running =>
      counts.exact pass (Machine.running_before halted running)⟩
  · exact Machine.Moved.retains_of_ground wf wf' frames frames' above ground (by simp) retains

theorem within_moved (wf : m.thread.WellFormed) (frames : m.frames = own ++ low)
    (nonempty : own ≠ []) (within : m.Within m') : ∃ own', m.Moved d low own m' own' := by
  obtain ⟨f, rest, rfl⟩ := List.exists_cons_of_ne_nil nonempty
  have ahead : Frame.Ahead m.thread.frames m'.thread.frames := within.frames
  rw [show m.thread.frames = f :: (rest ++ low) from frames] at ahead
  obtain ⟨f', frames', later⟩ := ahead.of_cons
  have below := (within.operands wf.base_le).below
  rw [Machine.base, Thread.stackBase_of_cons (show m.thread.frames = f :: (rest ++ low) from frames)]
    at below
  exact ⟨f' :: rest, current_moved wf (within.wellFormed wf) frames frames' later.stackBase
    later.method below within.depths within.level within.halted⟩

/-- The current frame is the topmost one of a run. -/
theorem current_of_ne_nil (frames : m.frames = own ++ low) (nonempty : own ≠ []) {f : Frame}
    {rest : List Frame} (current : m.thread.frames = f :: rest) :
    ∃ upper, own = f :: upper ∧ rest = upper ++ low := by
  obtain ⟨g, upper, rfl⟩ := List.exists_cons_of_ne_nil nonempty
  have same : f :: rest = g :: upper ++ low := current.symm.trans frames
  rw [List.cons_append, List.cons.injEq] at same
  obtain ⟨rfl, rfl⟩ := same
  exact ⟨upper, rfl, rfl⟩

theorem fetches_moved (wf : m.thread.WellFormed) (frames : m.frames = own ++ low)
    (nonempty : own ≠ []) {f f' : Frame} {rest : List Frame} (fetches : Fetches f f' rest m m') :
    ∃ upper, own = f :: upper ∧ rest = upper ++ low ∧ m.Moved d low own m' (f' :: upper) := by
  obtain ⟨upper, rfl, rfl⟩ := current_of_ne_nil frames nonempty fetches.before
  refine ⟨upper, rfl, rfl, ?_⟩
  have upkeep : m.Upkeep 0 m' := fetches_upkeep fetches
  refine current_moved wf (upkeep.wellFormed wf) frames fetches.frames
    fetches.fetched.stackBase fetches.fetched.method ?_ ?_ ?_ fetches.halted
  · rw [Machine.operands, fetches.thread]
  · rw [fetches.thread]
  · rw [fetches.thread]

theorem enters_moved (wf : m.thread.WellFormed) (wf' : m'.thread.WellFormed)
    (frames : m.frames = own ++ low) (nonempty : own ≠ []) {f : Frame} (enters : Enters f m m') :
    m.Moved d low own m' (f :: own) := by
  obtain ⟨mid, pushes, same⟩ := enters.pushes
  obtain ⟨k, rest, before, after⟩ := enters.counted
  have frames' : m'.frames = f :: own ++ low := by
    rw [same, List.cons_append, ← frames]
    exact pushes.frames
  have operands : m'.operands = m.operands := by
    rw [same]
    exact pushes.operands
  have halted : m.world.halted = true → m'.world.halted = true := by
    rw [same]
    exact pushes.halted
  have above {kept : List Operand} (above : m.Above low kept own) :
      m'.Above low kept (f :: own) := by
    refine above.rework frames' (fun g hg => ?_) (above.base_le (.inl nonempty)) (by rw [operands])
    cases hg with
    | head =>
        rw [pushes.base]
        exact Nat.le_trans (above.base_le (.inl nonempty)) wf.base_le
    | tail _ lower => exact above.apart g lower
  have ground {height : Nat} {decl : MethodDecl} (ground : Frame.Grounded height decl own) :
      Frame.Grounded height decl (f :: own) := ground.append [f]
  refine ⟨frames', fun kept _ => above kept, ?_, by simp, ?_,
    fun {outer n} counts => ⟨n + 1, Nat.le_succ n, ?_⟩, fun _ _ _ => ground, fun _ ops retains => ?_⟩
  · rw [same]
    exact pushes.level
  · intro room
    rw [List.length_cons]
    omega
  · have enough := counts.enough
    have depths := before.symm.trans counts.depths
    cases depths
    refine ⟨after, by rw [List.length_cons]; omega, fun pass running => ?_⟩
    have exact := counts.exact pass (Machine.running_before halted running)
    rw [List.length_cons]
    omega
  · exact Machine.Moved.retains_of_ground wf wf' frames frames' above ground nonempty retains

theorem move_moved (sound : d.Sound) (hs : r.Spares d) (hu : r.Upholds d)
    (wf : m.thread.WellFormed) (frames : m.frames = own ++ low) (room : d.slack ≤ own.length)
    (nonempty : own ≠ []) (h : Move d r s m m') : ∃ own', m.Moved d low own m' own' := by
  have wf' := (move_upkeep hu h).wellFormed wf
  cases h with
  | within within => exact within_moved wf frames nonempty within
  | enter _ enters => exact ⟨_, enters_moved wf wf' frames nonempty enters⟩
  | act act =>
      obtain ⟨own', moved, -⟩ := act_moved sound hs hu wf frames room act
      exact ⟨own', moved⟩

theorem moves_moved (sound : d.Sound) (hs : r.Spares d) (hu : r.Upholds d)
    (wf : m.thread.WellFormed) (frames : m.frames = own ++ low) (room : d.slack ≤ own.length)
    (nonempty : own ≠ []) (h : ReflTransGen (Move d r s) m m') :
    ∃ own', m.Moved d low own m' own' := by
  induction h with
  | refl => exact ⟨own, .refl frames⟩
  | tail steps last ih =>
      obtain ⟨mid, moved⟩ := ih
      have wf' := (Machine.Upkeep.of_steps (fun _ _ => move_upkeep hu) steps).wellFormed wf
      obtain ⟨own', moved'⟩ := move_moved sound hs hu wf' moved.frames (moved.slack room)
        (moved.stays nonempty) last
      exact ⟨own', moved.trans moved'⟩

/-! ## Moves that stop -/

theorem actStop_above {kept : List Operand} (hs : r.Spares d) (wf : m.thread.WellFormed)
    (above : m.Above low kept own) (seat : own ≠ [] ∨ kept.length ≤ Frame.floor low)
    (room : d.slack ≤ own.length) {stop : Stop} (h : ActStop d r s stop m m') :
    ∃ own', m'.Above low kept own' ∧ ((∃ e, stop = .fault e) →
      m'.thread.depths = m.thread.depths ∧ m'.thread.level = m.thread.level) := by
  cases h with
  | own sameFrames =>
      exact ⟨own, above.sameFrames seat wf sameFrames,
        fun _ => ⟨sameFrames.depths, sameFrames.level⟩⟩
  | called ready stopped sameThread =>
      have fits : d.slack ≤ m.frames.length := by rw [above.frames, List.length_append]; omega
      obtain ⟨new, spared, closed⟩ := hs.callStop wf fits ready stopped
      refine ⟨_, (above.lift seat wf room spared).sameStacks sameThread.sameStacks, fun fault => ?_⟩
      rw [sameThread.thread]
      exact closed fault

theorem moveStop_above {kept : List Operand} (hs : r.Spares d) (wf : m.thread.WellFormed)
    (above : m.Above low kept own) (nonempty : own ≠ []) (room : d.slack ≤ own.length)
    {stop : Stop} (h : MoveStop d r s stop m m') :
    ∃ own', m'.Above low kept own' ∧ ((∃ e, stop = .fault e) →
      m'.thread.depths = m.thread.depths ∧ m'.thread.level = m.thread.level) := by
  cases h with
  | within within =>
      obtain ⟨own', moved⟩ := within_moved (d := d) wf above.frames nonempty within
      exact ⟨own', moved.above above (.inl nonempty), fun _ => ⟨within.depths, within.level⟩⟩
  | @pushed f _ pushes =>
      exact ⟨f :: own, above.pushes pushes, fun _ => ⟨pushes.depths, pushes.level⟩⟩
  | act stops => exact actStop_above hs wf above (.inl nonempty) room stops

/-! ## Frames that are left -/

theorem left_above {f : Frame} {rest : List Frame} {kept : List Operand}
    (above : m.Above low kept (f :: rest)) (depths : List Nat) (events : Array Event) :
    (m.without [f] depths events).Above low kept rest where
  frames := by
    have current : m.thread.frames = f :: rest ++ low := above.frames
    simp only [Machine.frames, Machine.without, current, List.length_singleton, List.cons_append,
      List.drop_one, List.tail_cons]
  apart g hg := above.apart g (List.mem_cons_of_mem f hg)
  operands := by
    have apart := above.apart f List.mem_cons_self
    have length := above.operands.length_le
    simp only [Machine.operands, Machine.without, Operand.toList_take, Frame.roof, List.foldl_cons,
      List.foldl_nil]
    refine List.prefix_take_iff.mpr ⟨above.operands, ?_⟩
    rw [← Array.length_toList]
    exact Nat.le_min.mpr ⟨length, apart⟩

theorem left_counts {f : Frame} {rest : List Frame} {n : Nat} {outer : List Nat}
    (counts : m.Counts d outer (f :: rest) (n + 1)) (events : Array Event) :
    (m.without [f] (n :: outer) events).Counts d outer rest n where
  depths := rfl
  enough := by
    have enough := counts.enough
    rw [List.length_cons] at enough
    omega
  exact pass running := by
    have exact := counts.exact pass running
    rw [List.length_cons] at exact
    omega

/-- The operands are cut where the lowest frame began when that is left. -/
theorem left_operands {f : Frame} {kept : List Operand} (above : m.Above low kept [f])
    (base : f.stackBase = kept.length) (depths : List Nat) (events : Array Event) :
    (m.without [f] depths events).operands = kept := by
  have length := above.operands.length_le
  simp only [Machine.operands, Machine.without, Operand.toList_take, Frame.roof, List.foldl_cons,
    List.foldl_nil]
  rw [← Array.length_toList, base, Nat.min_eq_right length]
  exact (List.prefix_iff_eq_take.mp above.operands).symm

theorem handed_above {kept : List Operand} (above : m.Above low kept own) (v : Option Value)
    (bare : Bool) : (m.handed v bare).Above low kept own where
  frames := above.frames
  apart := above.apart
  operands := by
    rw [Machine.handed_operands]
    exact above.operands.trans (List.prefix_append _ _)

/-! ## Instructions -/

/-- What an instruction that has a result does to the frames of a run. -/
inductive StepMoved (d : Discipline) (low : List Frame) (m : Machine) (own : List Frame) :
    Flow → Machine → Prop
  /-- It moves them. -/
  | plain {m' : Machine} {own' : List Frame} : m.Moved d low own m' own' →
      StepMoved d low m own .next m'
  /-- It leaves one of them. -/
  | returned {b : Machine} {f : Frame} {rest : List Frame} {v : Option Value} {n : Nat}
      {outer : List Nat} {events : Array Event} {bare : Bool} : b.thread.WellFormed →
      m.Moved d low own b (f :: rest) → b.thread.pending = m.thread.pending →
      b.thread.depths = (n + 1) :: outer →
      (bare = false → n = 0 → (v.isSome = true ↔ f.method.type.result ≠ .void)) →
      StepMoved d low m own (if n = 0 then .leave else .next)
        ((b.without [f] (n :: outer) events).handed v bare)

theorem step_moved (sound : d.Sound) (hn : host.natives.Keep d host.toReentry)
    (hset : host.Settles) (hs : host.Spares d) (hu : host.Upholds d) (ready : d.Ready m)
    (wf : m.thread.WellFormed) (frames : m.frames = own ++ low) (room : d.slack ≤ own.length)
    (nonempty : own ≠ []) {flow : Flow} (h : step host s m = .ok flow m') :
    StepMoved d low m own flow m' := by
  cases step_ok hn hset ready h with
  | @plain a _ f f' rest fetches moves =>
      obtain ⟨upper, rfl, rfl, moved⟩ := fetches_moved (d := d) wf frames nonempty fetches
      have upkeep : m.Upkeep 0 a := fetches_upkeep fetches
      obtain ⟨own', moved'⟩ := moves_moved sound hs hu (upkeep.wellFormed wf) moved.frames
        (moved.slack room) (moved.stays nonempty) moves
      exact .plain (moved.trans moved')
  | @returned a b f f' rest v n outer events bare fetches yields depths marked =>
      obtain ⟨upper, rfl, rfl, moved⟩ := fetches_moved (d := d) wf frames nonempty fetches
      have upkeep : m.Upkeep 0 a := fetches_upkeep fetches
      have wf' := upkeep.wellFormed wf
      have worked := sameFrames_moved (d := d) wf' (yields.sameFrames.wellFormed wf') moved.frames
        yields.sameFrames
      refine .returned (yields.sameFrames.wellFormed wf') (moved.trans worked) ?_ depths ?_
      · have still : b.thread.pending = a.thread.pending := yields.samePending
        rw [still, fetches.thread]
      · intro full last
        refine yields.isSome_iff fun missing => ?_
        rw [marked.mpr (.inr ⟨last, missing⟩)] at full
        cases full

theorem stepStop_above {kept : List Operand} (sound : d.Sound)
    (hn : host.natives.Keep d host.toReentry) (hset : host.Settles)
    (hs : host.Spares d) (hu : host.Upholds d) (ready : d.Ready m) (wf : m.thread.WellFormed)
    (above : m.Above low kept own) (room : d.slack ≤ own.length) (nonempty : own ≠ [])
    {stop : Stop} (h : step host s m = .error stop m') :
    ∃ own', m'.Above low kept own' ∧ (∀ {outer n}, m.Counts d outer own n →
      (∃ e, stop = .fault e) →
        (∃ n', m'.thread.depths = n' :: outer) ∧ m'.thread.level = m.thread.level) := by
  cases step_error hn hset ready h with
  | unfetched => exact ⟨own, above, fun {_ n} counts _ => ⟨⟨n, counts.depths⟩, rfl⟩⟩
  | @moved a mid _ f f' rest fetches moves stops =>
      obtain ⟨upper, rfl, rfl, moved⟩ := fetches_moved (d := d) wf above.frames nonempty fetches
      have upkeep : m.Upkeep 0 a := fetches_upkeep fetches
      have wf' := upkeep.wellFormed wf
      obtain ⟨own', moved'⟩ := moves_moved sound hs hu wf' moved.frames (moved.slack room)
        (moved.stays nonempty) moves
      have whole := moved.trans moved'
      have wf'' := (Machine.Upkeep.of_steps (fun _ _ => move_upkeep hu) moves).wellFormed wf'
      obtain ⟨last, above', closed⟩ := moveStop_above hs wf'' (whole.above above (.inl nonempty))
        (whole.stays nonempty) (whole.slack room) stops
      refine ⟨last, above', fun {_ _} counts fault => ?_⟩
      obtain ⟨n', -, counts'⟩ := whole.counts counts
      obtain ⟨depths, level⟩ := closed fault
      exact ⟨⟨n', depths.trans counts'.depths⟩, level.trans whole.level⟩
  | @uncounted a b f f' rest v events fetches yields _ =>
      obtain ⟨upper, rfl, rfl, moved⟩ := fetches_moved (d := d) wf above.frames nonempty fetches
      have upkeep : m.Upkeep 0 a := fetches_upkeep fetches
      have wf' := upkeep.wellFormed wf
      have worked := sameFrames_moved (d := d) wf' (yields.sameFrames.wellFormed wf') moved.frames
        yields.sameFrames
      have whole := moved.trans worked
      refine ⟨upper, handed_above (left_above (whole.above above (.inl nonempty)) _ events) v _,
        fun {_ _} counts _ => ?_⟩
      obtain ⟨n', -, counts'⟩ := whole.counts counts
      exact ⟨⟨n', counts'.depths⟩, whole.level⟩

/-! ## Exceptions -/

section Unwinding

variable {kept : List Operand} {outer : List Nat} {n : Nat} {exception : Handle} {cls : String}

/-- Going on at a handler of the current frame. -/
theorem caught_moved {f : Frame} {rest : List Frame} {row : Handler} (wf : m.thread.WellFormed)
    (frames : m.frames = f :: rest ++ low) (inside : row.handlerPc.toNat < f.codeLength)
    (events : Array Event) :
    m.Moved d low (f :: rest)
      ((m.without [] m.thread.depths events).caught f (rest ++ low) row exception)
      ({ f with pc := row.handlerPc.toNat } :: rest) := by
  have current : m.thread.frames = f :: (rest ++ low) := frames
  have upkeep : m.Upkeep 0 ((m.without [] m.thread.depths events).caught f (rest ++ low) row
      exception) := Machine.upkeep_caught current inside events
  have reached := wf.reached f (by rw [current]; exact List.mem_cons_self)
  refine current_moved wf (upkeep.wellFormed wf) frames rfl rfl rfl ?_ rfl rfl id
  rw [Machine.without_nil]
  simp only [Machine.caught, Machine.operands, caughtOperands, List.append_assoc]
  rw [List.take_append_of_le_length, List.take_take, Nat.min_self]
  rw [List.length_take, Array.length_toList]
  omega

/-- A frame of the run is left that was not the last one, and the run goes on with the others. -/
theorem left_running {f : Frame} {rest : List Frame} {k : Nat} {outer' : List Nat}
    (wf : m.thread.WellFormed) (running : m.Running d low kept outer own n)
    (current : m.thread.frames = f :: rest) (counter : m.thread.depths = (k + 2) :: outer')
    (events : Array Event) :
    ∃ upper, own = f :: upper ∧ (m.without [f] ((k + 1) :: outer') events).thread.WellFormed ∧
      (m.without [f] ((k + 1) :: outer') events).Running d low kept outer upper (k + 1) := by
  have upkeep : m.Upkeep 0 (m.without [f] ((k + 1) :: outer') events) :=
    Machine.upkeep_without current _ _
  obtain ⟨upper, rfl, rfl⟩ := current_of_ne_nil running.frames running.ne_nil current
  have depths := running.depths.symm.trans counter
  cases depths
  exact ⟨upper, rfl, upkeep.wellFormed wf,
    { left_above running.toAbove _ events, left_counts running.toCounts events with
      begun := fun _ => Nat.le_add_left 1 k }⟩

/-- A run whose exception is caught goes on. -/
theorem Unwound.running {o : Option RunOutcome} (h : Unwound host exception cls level s m o m')
    (caught : o = none) (wf : m.thread.WellFormed) (running : m.Running d low kept outer own n) :
    ∃ own' n', m'.Running d low kept outer own' n' ∧ m'.thread.level = m.thread.level ∧
      (d.clear = true → ∀ {height decl}, Frame.Grounded height decl own →
        Frame.Grounded height decl own') := by
  induction h generalizing own n with
  | @caught m f rest row events current inside =>
      obtain ⟨upper, rfl, rfl⟩ := current_of_ne_nil running.frames running.ne_nil current
      have moved : m.Moved d low (f :: upper)
          ((m.without [] m.thread.depths events).caught f (upper ++ low) row exception)
          ({ f with pc := row.handlerPc.toNat } :: upper) :=
        caught_moved wf running.frames inside events
      obtain ⟨n', le, counts⟩ := moved.counts running.toCounts
      refine ⟨_, n', ⟨moved.above running.toAbove (.inl running.ne_nil), counts, fun clear => ?_⟩,
        moved.level, moved.ground⟩
      exact Nat.le_trans (running.begun clear) le
  | ended => cases caught
  | delivered => cases caught
  | @left m m' f rest k outer' events o current counter _ ih =>
      obtain ⟨upper, rfl, wf', less⟩ := left_running wf running current counter events
      obtain ⟨own', n', running', level, ground⟩ := ih caught wf' less
      refine ⟨own', n', running', level, fun clear {height decl} grounded => ground clear ?_⟩
      obtain ⟨empty, -⟩ | lower := grounded.tail
      · exact absurd empty less.ne_nil
      · exact lower

end Unwinding

/-! ## The end of a run -/

end Exec

/-- The last frame that a run has counted is left, with a value or without.  When it was the lowest
one, the operands are those below it, and the value. -/
structure Machine.Parted (d : Discipline) (low : List Frame) (kept : List Operand)
    (outer : List Nat) (decl : MethodDecl) (own : List Frame) (v : Option Value) (m : Machine) :
    Prop extends m.Above low kept own, m.Counts d outer own 0 where
  /-- The lowest frame is left, or it is still there. -/
  bottom : d.clear = true →
    own = [] ∧ m.operands = kept ++ (v.toList.map fun v => ⟨v, Frame.mark low⟩) ∨
      Frame.Grounded kept.length decl own

/-- The operands below the lowest frame of a run are those that were there. -/
theorem Frame.Grounded.retains {low own : List Frame} {kept : List Operand}
    {decl : MethodDecl} {m : Machine} (ground : Frame.Grounded kept.length decl own)
    (wf : m.thread.WellFormed) (above : m.Above low kept own)
    (reach : Frame.floor low ≤ kept.length) : m.Retains low kept own := by
  rw [Machine.Retains, ground.roof_eq wf above.frames, ← List.prefix_iff_eq_take.mp above.operands]
  exact .refl reach

namespace Machine.Parted

variable {d : Discipline} {low own : List Frame} {kept : List Operand} {outer : List Nat}
  {decl : MethodDecl} {v : Option Value} {m : Machine}

theorem retains (left : m.Parted d low kept outer decl own v) (wf : m.thread.WellFormed)
    (reach : d.clear = true → Frame.floor low ≤ kept.length) (strict : d = .strict) :
    m.Retains low kept own := by
  have clear : d.clear = true := by rw [strict]
  obtain ⟨rfl, operands⟩ | ground := left.bottom clear
  · rw [retains_nil, operands]
    refine .push (reach clear) fun o ho => ?_
    obtain ⟨w, -, rfl⟩ := List.mem_map.mp ho
    rfl
  · exact ground.retains wf left.toAbove (reach clear)

theorem spared (left : m.Parted d low kept outer decl own v) (height : Nat) :
    m.Spared d low (kept.take height) own := by
  refine ⟨left.toAbove.take height, ?_, fun pass unhalted => ?_⟩
  · have enough := left.enough
    omega
  · have exact := left.exact pass unhalted
    omega

/-- No frame is left on top, so the operands are those below the lowest one, and the value. -/
theorem emptied (left : m.Parted .strict low kept outer decl own v)
    (unhalted : m.world.halted = false) :
    own = [] ∧ m.operands = kept ++ (v.toList.map fun v => ⟨v, Frame.mark low⟩) := by
  have empty : own = [] := List.length_eq_zero_iff.mp (left.exact rfl unhalted)
  obtain ⟨-, operands⟩ | ground := left.bottom rfl
  · exact ⟨empty, operands⟩
  · exact absurd empty ground.ne_nil

end Machine.Parted

/-- How a run of a method comes to its outcome. -/
inductive Exec.Ended (d : Discipline) (host : Host) (s : Settings) (low : List Frame)
    (kept : List Operand) (outer : List Nat) (decl : MethodDecl) : RunOutcome → Machine → Prop
  /-- The machine is halted. -/
  | halted {m : Machine} {own : List Frame} {n : Nat} : m.Running d low kept outer own n →
      (d.clear = true → Frame.Grounded kept.length decl own) → m.world.halted = true →
      Ended d host s low kept outer decl .halted m
  /-- The last frame has returned, with a value unless the method is void. -/
  | completed {m : Machine} {own : List Frame} {v : Option Value} :
      m.Parted d low kept outer decl own v → (d.clear = true → own = [] → m.thread.bare = false →
        (v.isSome = true ↔ decl.type.result ≠ .void)) →
      Ended d host s low kept outer decl .completed m
  /-- An exception has left the last frame. -/
  | pending {m : Machine} {own : List Frame} {exception : Handle} :
      m.Parted d low kept outer decl own none →
      Ended d host s low kept outer decl (.exceptionPending exception) m
  /-- An exception has left the last frame and was delivered. -/
  | uncaught {m m' : Machine} {own : List Frame} {exception : Handle} {o : RunOutcome} :
      m.thread.WellFormed → m.Parted d low kept outer decl own none →
      deliverUncaught host exception s m = .ok o m' → Ended d host s low kept outer decl o m'

namespace Exec

variable {d : Discipline} {r : Reentry} {host : Host} {level : Nat} {s : Settings}
  {m m' : Machine} {low own : List Frame} {kept : List Operand} {outer : List Nat} {n : Nat}
  {decl : MethodDecl}

/-- The last frame that a run has counted is left by an exception. -/
theorem left_parted {f : Frame} {rest : List Frame}
    (running : m.Running d low kept outer (f :: rest) 1)
    (ground : d.clear = true → Frame.Grounded kept.length decl (f :: rest)) (events : Array Event) :
    (m.without [f] (0 :: outer) events).Parted d low kept outer decl rest none :=
  { left_above running.toAbove _ events, left_counts running.toCounts events with
    bottom := fun clear => by
      obtain ⟨rfl, base, -⟩ | lower := (ground clear).tail
      · refine .inl ⟨rfl, ?_⟩
        rw [left_operands running.toAbove base]
        simp
      · exact .inr lower }

theorem deliverUncaught_moved (sound : d.Sound) (hs : host.Spares d) (hu : host.Upholds d)
    (wf : m.thread.WellFormed) (frames : m.frames = own ++ low) (room : d.slack ≤ own.length)
    {exception : Handle} {o : RunOutcome} (h : deliverUncaught host exception s m = .ok o m') :
    ∃ own', m.Moved d low own m' own' ∧ m'.thread.depths = m.thread.depths :=
  acts_moved sound hs hu wf frames room ((deliverUncaught_along (acts_calls host) exception).of_ok trivial h).1

/-- A run whose exception is not caught ends. -/
theorem Unwound.ended_run (sound : d.Sound) (hs : host.Spares d) (hu : host.Upholds d)
    {o : Option RunOutcome} {o' : RunOutcome} {exception : Handle} {cls : String}
    (h : Unwound host exception cls level s m o m') (finished : o = some o')
    (wf : m.thread.WellFormed) (running : m.Running d low kept outer own n)
    (ground : d.clear = true → Frame.Grounded kept.length decl own) :
    Ended d host s low kept outer decl o' m' ∧ m'.thread.level = m.thread.level := by
  induction h generalizing own n with
  | caught => cases finished
  | @ended m f rest outer' events current counter _ =>
      obtain ⟨upper, rfl, rfl⟩ := current_of_ne_nil running.frames running.ne_nil current
      have depths := running.depths.symm.trans counter
      cases depths
      cases finished
      exact ⟨.pending (left_parted running ground events), rfl⟩
  | @delivered m m' f rest outer' events o current counter _ delivered =>
      obtain ⟨upper, rfl, rfl⟩ := current_of_ne_nil running.frames running.ne_nil current
      have depths := running.depths.symm.trans counter
      cases depths
      cases finished
      have upkeep : m.Upkeep 0 (m.without [f] (0 :: outer) events) :=
        Machine.upkeep_without current _ _
      have parted := left_parted running ground events
      have wf' := upkeep.wellFormed wf
      have room : d.slack ≤ upper.length := by
        have enough := parted.enough
        omega
      obtain ⟨own', moved, -⟩ := deliverUncaught_moved sound hs hu wf' parted.frames room delivered
      exact ⟨.uncaught wf' parted delivered, moved.level⟩
  | @left m m' f rest k outer' events o current counter _ ih =>
      obtain ⟨upper, rfl, wf', less⟩ := left_running wf running current counter events
      refine ih finished wf' less fun clear => ?_
      obtain ⟨empty, -⟩ | lower := (ground clear).tail
      · exact absurd empty less.ne_nil
      · exact lower

/-- Handling an exception stops inside the run, or while the exception is delivered. -/
theorem UnwindStop.above {height : Nat} {stop : Stop} {exception : Handle} (sound : d.Sound)
    (hs : host.Spares d) (hu : host.Upholds d) (h : UnwindStop host exception s stop m m')
    (wf : m.thread.WellFormed) (running : m.Running d low kept outer own n)
    (low_le : d.clear = true → height ≤ Frame.floor low) :
    ∃ own', m'.Above low (kept.take height) own' ∧ ((∃ e, stop = .fault e) →
      (∃ n', m'.thread.depths = n' :: outer) ∧ m'.thread.level = m.thread.level) := by
  induction h generalizing own n with
  | here sameFrames =>
      refine ⟨own, (running.toAbove.sameFrames (.inl running.ne_nil) wf sameFrames).take height,
        fun _ => ?_⟩
      exact ⟨⟨n, sameFrames.depths.trans running.depths⟩, sameFrames.level⟩
  | @uncounted m f rest events current _ =>
      obtain ⟨upper, rfl, rfl⟩ := current_of_ne_nil running.frames running.ne_nil current
      exact ⟨upper, (left_above running.toAbove _ events).take height,
        fun _ => ⟨⟨n, running.depths⟩, rfl⟩⟩
  | @delivering m m' f rest outer' events current counter stopped =>
      obtain ⟨upper, rfl, rfl⟩ := current_of_ne_nil running.frames running.ne_nil current
      have depths := running.depths.symm.trans counter
      cases depths
      have upkeep : m.Upkeep 0 (m.without [f] (0 :: outer) events) :=
        Machine.upkeep_without current _ _
      have wf' := upkeep.wellFormed wf
      have left := (left_above running.toAbove (0 :: outer) events).take height
      have counts := left_counts running.toCounts events
      have room : d.slack ≤ upper.length := by
        have enough := counts.enough
        omega
      have seat : upper ≠ [] ∨ (kept.take height).length ≤ Frame.floor low :=
        seat_of_slack room low_le
      obtain ⟨mid, steps, stops⟩ :=
        (deliverUncaught_along (acts_calls (d := d) host) exception).of_error trivial stopped
      obtain ⟨own', moved, -⟩ := acts_moved sound hs hu wf' left.frames room steps
      have wf'' := (Machine.Upkeep.of_steps (fun _ _ => act_upkeep hu) steps).wellFormed wf'
      have seat' : own' ≠ [] ∨ (kept.take height).length ≤ Frame.floor low :=
        seat.imp moved.stays id
      obtain ⟨last, above, closed⟩ := actStop_above hs wf'' (moved.above left seat) seat'
        (moved.slack room) stops
      refine ⟨last, above, fun fault => ?_⟩
      obtain ⟨n', -, counts'⟩ := moved.counts counts
      obtain ⟨depths, level⟩ := closed fault
      exact ⟨⟨n', depths.trans counts'.depths⟩, level.trans moved.level⟩
  | @left m m' f rest k outer' events current counter _ ih =>
      obtain ⟨upper, rfl, wf', less⟩ := left_running wf running current counter events
      exact ih wf' less

/-! ## Turns -/

theorem running_sameStacks (running : m.Running d low kept outer own n)
    (sameStacks : m.SameStacks m') :
    m'.Running d low kept outer own n :=
  { running.toAbove.sameStacks sameStacks with
    depths := sameStacks.depths.trans running.depths
    enough := running.enough
    exact := fun pass unhalted => running.exact pass (Machine.running_before sameStacks.halted
      unhalted)
    begun := running.begun }

theorem running_moved {own' : List Frame} (running : m.Running d low kept outer own n)
    (moved : m.Moved d low own m' own') : ∃ n', m'.Running d low kept outer own' n' := by
  obtain ⟨n', le, counts⟩ := moved.counts running.toCounts
  exact ⟨n', { moved.above running.toAbove (.inl running.ne_nil), counts with
    begun := fun clear => Nat.le_trans (running.begun clear) le }⟩

theorem running_atLevel (running : m.Running d low kept outer own n) (level : Nat) :
    (m.atLevel level).Running d low kept outer own n :=
  ⟨⟨running.frames, running.apart, running.operands⟩,
    ⟨running.depths, running.enough, running.exact⟩, running.begun⟩

/-- Leaving a frame with a value or without it. -/
theorem returned_counts {f : Frame} {rest : List Frame} {k : Nat}
    (above : m.Above low kept (f :: rest)) (counts : m.Counts d outer (f :: rest) (k + 1))
    (events : Array Event) (v : Option Value) (bare : Bool) :
    ((m.without [f] (k :: outer) events).handed v bare).Above low kept rest ∧
      ((m.without [f] (k :: outer) events).handed v bare).Counts d outer rest k := by
  have less := left_counts counts events
  exact ⟨handed_above (left_above above _ events) v bare, less.depths, less.enough, less.exact⟩

theorem room_of_running (running : m.Running d low kept outer own n) : d.slack ≤ own.length := by
  have enough := running.enough
  omega

section Turns

variable (sound : d.Sound) (hn : host.natives.Keep d host.toReentry) (hset : host.Settles)
  (hs : host.Spares d) (hu : host.Upholds d)

include sound hn hset hs hu

/-- An instruction after which an exception is handled leaves the run a frame. -/
theorem step_handled (ready : d.Ready m) (wf : m.thread.WellFormed)
    (running : m.Running d low kept outer own n) {flow : Flow} {e : Handle}
    (h : step host s m = .ok flow m') (pending : m'.thread.pending = some e) :
    ∃ own' n', m'.Running d low kept outer own' n' ∧ m'.thread.level = m.thread.level ∧
      (d.clear = true → ∀ {height decl}, Frame.Grounded height decl own →
        Frame.Grounded height decl own') := by
  cases step_moved sound hn hset hs hu ready wf running.frames (room_of_running running)
    running.ne_nil h with
  | @plain _ own' moved =>
      obtain ⟨n', running'⟩ := running_moved running moved
      exact ⟨own', n', running', moved.level, moved.ground⟩
  | @returned b f rest v k outer' events bare _ moved still depths _ =>
      -- a return leaves the pending exception alone
      have raised : m.thread.pending = some e := still.symm.trans pending
      have unclear : ¬ d.clear = true := fun clear => by
        rw [ready clear] at raised
        cases raised
      obtain ⟨n', running'⟩ := running_moved running moved
      have same := running'.depths.symm.trans depths
      cases same
      obtain ⟨above, counts⟩ := returned_counts running'.toAbove running'.toCounts events v bare
      exact ⟨rest, k, { above, counts with begun := fun clear => absurd clear unclear },
        moved.level, fun clear => absurd clear unclear⟩

/-- A run goes on after a turn without an answer. -/
theorem round_running (ready : d.Ready m) (wf : m.thread.WellFormed)
    (running : m.Running d low kept outer own n) (h : Round host level s m m') :
    ∃ own' n', m'.Running d low kept outer own' n' ∧ m'.thread.level = m.thread.level ∧
      (d.clear = true → ∀ {height decl}, Frame.Grounded height decl own →
        Frame.Grounded height decl own') := by
  unfold Round at h
  generalize answer : none = o at h
  cases turn_ok h with
  | halted => cases answer
  | @settled b _ flow begins stepped _ =>
      have wf' := begins.wellFormed wf
      have running' := running_sameStacks running begins.sameStacks
      cases step_moved sound hn hset hs hu (begins.ready ready) wf' running'.frames
        (room_of_running running') running'.ne_nil stepped with
      | @plain _ own' moved =>
          obtain ⟨n', running''⟩ := running_moved running' moved
          exact ⟨own', n', running'', moved.level.trans begins.sameStacks.level, moved.ground⟩
      | @returned c f rest v k outer' events bare _ moved _ depths _ =>
          obtain ⟨n', running''⟩ := running_moved running' moved
          have same := running''.depths.symm.trans depths
          cases same
          have more : k ≠ 0 := by
            rintro rfl
            simp at answer
          obtain ⟨above, counts⟩ :=
            returned_counts running''.toAbove running''.toCounts events v bare
          have last : (b.thread.level = m.thread.level) := begins.sameStacks.level
          refine ⟨rest, k, { above, counts with begun := fun _ => Nat.one_le_iff_ne_zero.mpr more },
            moved.level.trans last, fun clear {height decl} grounded => ?_⟩
          have enough := counts.enough
          obtain ⟨rfl, -⟩ | lower := (moved.ground clear grounded).tail
          · rw [List.length_nil] at enough
            omega
          · exact lower
  | @handled b c _ flow e _ begins stepped pending handled =>
      have wf' := begins.wellFormed wf
      have running' := running_sameStacks running begins.sameStacks
      obtain ⟨own', n', running'', level', ground⟩ := step_handled sound hn hset hs hu
        (begins.ready ready) wf' running' stepped pending
      have upkeep : b.Upkeep s.config.maxFrames c :=
        after_of_ok stepped ▸ step_upkeep hn hset hu (begins.ready ready)
      obtain ⟨cls, unwound⟩ := handleException_ok handled
      obtain ⟨own'', n'', running''', level'', ground'⟩ :=
        unwound.running answer.symm (upkeep.wellFormed wf') running''
      exact ⟨own'', n'', running''', level''.trans (level'.trans begins.sameStacks.level),
        fun clear {_ _} grounded => ground' clear (ground clear grounded)⟩

/-- A turn with an answer ends the run. -/
theorem turn_ended (ready : d.Ready m) (wf : m.thread.WellFormed)
    (running : m.Running d low kept outer own n)
    (ground : d.clear = true → Frame.Grounded kept.length decl own) {o : RunOutcome}
    (h : turn host level s m = .ok (some o) m') :
    Ended d host s low kept outer decl o m' ∧ m'.thread.level = m.thread.level := by
  generalize answer : some o = o' at h
  cases turn_ok h with
  | halted sameThread halted =>
      cases answer
      exact ⟨.halted (running_sameStacks running sameThread.sameStacks) ground halted,
        sameThread.sameStacks.level⟩
  | @settled b _ flow begins stepped _ =>
      have wf' := begins.wellFormed wf
      have running' := running_sameStacks running begins.sameStacks
      cases step_moved sound hn hset hs hu (begins.ready ready) wf' running'.frames
        (room_of_running running') running'.ne_nil stepped with
      | plain => simp at answer
      | @returned c f rest v k outer' events bare _ moved _ depths yields =>
          obtain ⟨n', running''⟩ := running_moved running' moved
          have same := running''.depths.symm.trans depths
          cases same
          obtain rfl : k = 0 := by
            by_contra more
            simp [more] at answer
          obtain rfl : o = .completed := by simpa using answer
          obtain ⟨above, counts⟩ :=
            returned_counts running''.toAbove running''.toCounts events v bare
          have bottom (clear : d.clear = true) : rest = [] ∧
              ((c.without [f] (0 :: outer) events).handed v bare).operands =
                kept ++ (v.toList.map fun v => ⟨v, Frame.mark low⟩) ∨
              Frame.Grounded kept.length decl rest := by
            obtain ⟨rfl, base, -⟩ | lower := (moved.ground clear (ground clear)).tail
            · refine .inl ⟨rfl, ?_⟩
              have left := left_above running''.toAbove (0 :: outer) events
              have frames : (c.without [f] (0 :: outer) events).thread.frames = low := left.frames
              rw [Machine.handed_operands, left_operands running''.toAbove base, Machine.tag,
                Thread.instructionPc_eq_mark frames]
            · exact .inr lower
          refine ⟨.completed ⟨above, counts, bottom⟩ ?_, moved.level.trans begins.sameStacks.level⟩
          intro clear empty full
          subst empty
          obtain ⟨-, -, method⟩ | lower := (moved.ground clear (ground clear)).tail
          · rw [← method]
            exact yields full rfl
          · exact absurd rfl lower.ne_nil
  | @handled b c _ flow e _ begins stepped pending handled =>
      have wf' := begins.wellFormed wf
      have running' := running_sameStacks running begins.sameStacks
      obtain ⟨own', n', running'', level', ground'⟩ := step_handled sound hn hset hs hu
        (begins.ready ready) wf' running' stepped pending
      have upkeep : b.Upkeep s.config.maxFrames c :=
        after_of_ok stepped ▸ step_upkeep hn hset hu (begins.ready ready)
      obtain ⟨cls, unwound⟩ := handleException_ok handled
      obtain ⟨ended, level''⟩ := unwound.ended_run sound hs hu answer.symm (upkeep.wellFormed wf')
        running'' fun clear => ground' clear (ground clear)
      exact ⟨ended, level''.trans (level'.trans begins.sameStacks.level)⟩

/-- A turn stops inside the run, or while an exception is delivered. -/
theorem turnStop_above {height : Nat} (ready : d.Ready m) (wf : m.thread.WellFormed)
    (running : m.Running d low kept outer own n)
    (low_le : d.clear = true → height ≤ Frame.floor low) {stop : Stop}
    (h : turn host level s m = .error stop m') :
    ∃ own', m'.Above low (kept.take height) own' ∧ ((∃ e, stop = .fault e) →
      (∃ n', m'.thread.depths = n' :: outer) ∧ m'.thread.level = m.thread.level) := by
  cases turn_error h with
  | before sameStacks =>
      exact ⟨own, (running.toAbove.sameStacks sameStacks).take height,
        fun _ => ⟨⟨n, sameStacks.depths.trans running.depths⟩, sameStacks.level⟩⟩
  | @inside b begins stepped =>
      have wf' := begins.wellFormed wf
      have running' := running_sameStacks running begins.sameStacks
      obtain ⟨own', above, closed⟩ := stepStop_above sound hn hset hs hu (begins.ready ready) wf'
        running'.toAbove (room_of_running running') running'.ne_nil stepped
      refine ⟨own', above.take height, fun fault => ?_⟩
      obtain ⟨depths, level⟩ := closed running'.toCounts fault
      exact ⟨depths, level.trans begins.sameStacks.level⟩
  | @handling b c flow e begins stepped pending handled =>
      have wf' := begins.wellFormed wf
      have running' := running_sameStacks running begins.sameStacks
      obtain ⟨own', n', running'', level', -⟩ := step_handled sound hn hset hs hu
        (begins.ready ready) wf' running' stepped pending
      have upkeep : b.Upkeep s.config.maxFrames c :=
        after_of_ok stepped ▸ step_upkeep hn hset hu (begins.ready ready)
      obtain ⟨own'', above, closed⟩ := (handleException_error handled).above sound hs hu
        (upkeep.wellFormed wf') running'' low_le
      refine ⟨own'', above, fun fault => ?_⟩
      obtain ⟨depths, level''⟩ := closed fault
      exact ⟨depths, level''.trans (level'.trans begins.sameStacks.level)⟩

/-! ## Runs -/

theorem rounds_running (ready : d.Ready m) (wf : m.thread.WellFormed)
    (running : m.Running d low kept outer own n) (h : ReflTransGen (Round host level s) m m') :
    m'.thread.WellFormed ∧ d.Ready m' ∧ ∃ own' n', m'.Running d low kept outer own' n' ∧
      m'.thread.level = m.thread.level ∧
      (d.clear = true → ∀ {height decl}, Frame.Grounded height decl own →
        Frame.Grounded height decl own') := by
  induction h with
  | refl => exact ⟨wf, ready, own, n, running, rfl, fun _ _ _ grounded => grounded⟩
  | @tail mid last _ round ih =>
      obtain ⟨wf', ready', own', n', running', level', ground⟩ := ih
      obtain ⟨own'', n'', running'', level'', ground'⟩ :=
        round_running sound hn hset hs hu ready' wf' running' round
      have upkeep : mid.Upkeep s.config.maxFrames last :=
        after_of_ok round ▸ turn_upkeep hn hset hu ready'
      exact ⟨upkeep.wellFormed wf', fun _ => round.pending_eq_none, own'', n'', running'',
        level''.trans level', fun clear {_ _} grounded => ground' clear (ground clear grounded)⟩

/-- A run with an outcome has ended, and is no longer counted among the runs in progress. -/
theorem runLoop_ended (ready : d.Ready m) (wf : m.thread.WellFormed)
    (running : m.Running d low kept outer own n)
    (ground : d.clear = true → Frame.Grounded kept.length decl own) {budget : Nat} {o : RunOutcome}
    (h : runLoop host budget s m = .ok o m') :
    ∃ last, Ended d host s low kept outer decl o last ∧ m' = last.atLevel m.thread.level := by
  obtain ⟨last, looped, rfl⟩ := runLoop_ok h
  obtain ⟨mid, rounds, final⟩ := loop_ok looped
  let start := m.atLevel (m.thread.level + 1)
  have upkeep : m.Upkeep 0 start := Machine.upkeep_atLevel _
  obtain ⟨wf', ready', own', n', running', level', ground'⟩ := rounds_running sound hn hset hs hu
    (m := start) ready (upkeep.wellFormed wf) (running_atLevel running _) rounds
  obtain ⟨ended, level''⟩ := turn_ended sound hn hset hs hu ready' wf' running'
    (fun clear => ground' clear (ground clear)) final
  refine ⟨last, ended, ?_⟩
  have level : last.thread.level = m.thread.level + 1 := level''.trans level'
  rw [level, Nat.add_sub_cancel]

omit hn hset in
/-- A run that has ended has left all of its frames, unless the machine is halted. -/
theorem Ended.spared {height : Nat} {o : RunOutcome} (h : Ended d host s low kept outer decl o m)
    (wf : m.thread.WellFormed) (reach : d.clear = true → Frame.floor low ≤ kept.length)
    (low_le : d.clear = true → height ≤ Frame.floor low) :
    ∃ own, m.Spared d low (kept.take height) own ∧ (∃ n, m.thread.depths = n :: outer) ∧
      (d = .strict → m.Retains low kept own) := by
  cases h with
  | @halted _ own n running ground halted =>
      refine ⟨own, ⟨running.toAbove.take height, room_of_running running, fun _ unhalted => ?_⟩,
        ⟨n, running.depths⟩, fun strict => ?_⟩
      · rw [halted] at unhalted
        cases unhalted
      · have clear : d.clear = true := by rw [strict]
        exact (ground clear).retains wf running.toAbove (reach clear)
  | @completed _ own v left _ =>
      exact ⟨own, left.spared height, ⟨0, left.depths⟩, left.retains wf reach⟩
  | @pending _ own e left =>
      exact ⟨own, left.spared height, ⟨0, left.depths⟩, left.retains wf reach⟩
  | @uncaught c _ own e _ wf' left delivered =>
      have spared := left.spared height
      obtain ⟨own', moved, depths⟩ :=
        deliverUncaught_moved sound hs hu wf' left.frames spared.slack delivered
      have seat : own ≠ [] ∨ (kept.take height).length ≤ Frame.floor low :=
        seat_of_slack spared.slack low_le
      obtain ⟨n', -, counts⟩ := moved.counts left.toCounts
      obtain rfl : n' = 0 := by
        have same := counts.depths.symm.trans (depths.trans left.depths)
        injection same
      refine ⟨own', ⟨moved.above spared.toAbove seat, moved.slack spared.slack,
        fun pass unhalted => ?_⟩, ⟨0, counts.depths⟩, fun strict =>
          moved.retains strict (left.retains wf' reach strict)⟩
      have exact := counts.exact pass unhalted
      omega

theorem runLoop_spares {height budget : Nat} {o : RunOutcome} (wf : m.thread.WellFormed)
    (ready : d.Ready m) (running : m.Running d low kept outer own n)
    (ground : d.clear = true → Frame.Grounded kept.length decl own ∧ height ≤ Frame.floor low)
    (h : runLoop host budget s m = .ok o m') :
    ∃ own', m'.Spared d low (kept.take height) own' ∧ (∃ n', m'.thread.depths = n' :: outer) ∧
      m'.thread.level = m.thread.level ∧ (d = .strict → m'.Retains low kept own') := by
  have upkeep : m.Upkeep s.config.maxFrames m' := after_of_ok h ▸ runLoop_upkeep hn hset hu ready _
  obtain ⟨last, ended, rfl⟩ := runLoop_ended sound hn hset hs hu ready wf running
    (fun clear => (ground clear).1) h
  have same : (last.atLevel m.thread.level).Upkeep 0 last := Machine.upkeep_atLevel _
  obtain ⟨own', spared, depths, retains⟩ := ended.spared sound hs hu
    (same.wellFormed (upkeep.wellFormed wf)) (fun clear => (ground clear).1.floor_le wf running.frames)
    fun clear => (ground clear).2
  refine ⟨own', ⟨⟨spared.frames, spared.apart, spared.operands⟩, spared.slack, spared.exact⟩, depths,
    rfl, retains⟩

theorem runLoop_stops {height budget : Nat} {stop : Stop} (wf : m.thread.WellFormed)
    (ready : d.Ready m) (running : m.Running d low kept outer own n)
    (low_le : d.clear = true → height ≤ Frame.floor low)
    (h : runLoop host budget s m = .error stop m') :
    ∃ own', m'.Above low (kept.take height) own' ∧ ((∃ e, stop = .fault e) →
      (∃ n', m'.thread.depths = n' :: outer) ∧ m'.thread.level = m.thread.level) := by
  obtain ⟨last, looped, ended⟩ := runLoop_error h
  obtain ⟨mid, rounds, final⟩ := loop_error looped
  let start := m.atLevel (m.thread.level + 1)
  have upkeep : m.Upkeep 0 start := Machine.upkeep_atLevel _
  obtain ⟨wf', ready', own', n', running', level', -⟩ := rounds_running sound hn hset hs hu
    (m := start) ready (upkeep.wellFormed wf) (running_atLevel running _) rounds
  have stopped : ∃ own', last.Above low (kept.take height) own' ∧ ((∃ e, stop = .fault e) →
      (∃ n', last.thread.depths = n' :: outer) ∧ last.thread.level = m.thread.level + 1) := by
    obtain failed | ⟨rfl, rfl⟩ := final
    · obtain ⟨own'', above, closed⟩ :=
        turnStop_above sound hn hset hs hu ready' wf' running' low_le failed
      refine ⟨own'', above, fun fault => ?_⟩
      obtain ⟨depths, level''⟩ := closed fault
      exact ⟨depths, level''.trans level'⟩
    · exact ⟨own', running'.toAbove.take height, fun ⟨_, impossible⟩ => nomatch impossible⟩
  obtain ⟨own'', above, closed⟩ := stopped
  obtain ⟨fault, rfl⟩ | ⟨none, rfl⟩ := ended
  · refine ⟨own'', ⟨above.frames, above.apart, above.operands⟩, fun fault => ?_⟩
    obtain ⟨depths, level''⟩ := closed fault
    refine ⟨depths, ?_⟩
    show last.thread.level - 1 = m.thread.level
    omega
  · exact ⟨own'', above, fun ⟨e, fault⟩ => absurd fault (none e)⟩

end Turns

end Exec

end JavaMachine
