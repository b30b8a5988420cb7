import JavaMachine.Proofs.Stacks

/-!
# Instructions that stay in their frame

Every instruction that calls no method works within the current frame: it moves the frame on and
reworks its operands, and no other frame and no operand below is touched, also when it stops in
the middle.  There is one lemma for each function.

Only the shuffles need an argument of their own.  They push operands back with the address that
first pushed them, so a push alone does not have the tag of the instruction; but what is pushed
back was popped before, by the same instruction.
-/

namespace JavaMachine.Exec

variable {α : Type} {R : Machine → Machine → Prop} {s : Settings} {m m' : Machine}

/-! ## Operands that are taken -/

/-- Operands were popped, the deepest of them first, and nothing else has changed. -/
structure Took (m : Machine) (taken : List Operand) (m' : Machine) : Prop where
  /-- They were the top ones. -/
  split : m.operands = m'.operands ++ taken
  /-- The base is still reached. -/
  reaches : m.base ≤ m.operands.length → m.base ≤ m'.operands.length
  /-- Nothing else has changed. -/
  rest : m' = m.withOperands m'.thread.operands

namespace Took

theorem refl (m : Machine) : Took m [] m := ⟨by rw [List.append_nil], id, rfl⟩

theorem trans {a b c : Machine} {upper lower : List Operand} (first : Took a upper b)
    (second : Took b lower c) : Took a (lower ++ upper) c where
  split := by rw [first.split, second.split, List.append_assoc]
  reaches h := by
    have base : b.base = a.base := by rw [first.rest]; rfl
    rw [← base]
    exact second.reaches (by rw [base]; exact first.reaches h)
  rest := by rw [second.rest, first.rest]; rfl

theorem tag_eq {taken : List Operand} (h : Took m taken m') : m'.tag = m.tag := by
  rw [h.rest]
  rfl

/-- What was taken belonged to the current frame, and so did what was below it in its share. -/
theorem held {taken : List Operand} (h : Took m taken m') (tight : m.Tight) :
    m.base ≤ m'.operands.length ∧ (∀ o ∈ taken, o.value.HeldBy m.thread.issued) ∧
      ∀ o ∈ m'.operands.drop m.base, o.value.HeldBy m.thread.issued := by
  have reaches := h.reaches tight.thread.reaches
  have share : m.thread.frameOperands = m'.operands.drop m.base ++ taken := by
    rw [Thread.frameOperands, show m.thread.operands.toList = _ from h.split,
      List.drop_append_of_le_length reaches]
  have held := tight.thread.held
  rw [share] at held
  exact ⟨reaches, fun o listed => held o (List.mem_append_right _ listed),
    fun o listed => held o (List.mem_append_left _ listed)⟩

/-- What was taken is replaced by operands with the same values, among which only new ones have the
tag. -/
theorem replace [AllowsOperands R] {taken : List Operand} (h : Took m taken m')
    (new : List Operand) (hnew : ∀ p, Foreign m.tag p → new.countP p ≤ taken.countP p)
    (values : new.map Operand.value ⊆ taken.map Operand.value) :
    R m (m'.withOperands (m'.thread.operands ++ new.toArray)) := by
  have rebased : m'.withOperands (m'.thread.operands ++ new.toArray) =
      m.withOperands (m'.thread.operands ++ new.toArray) := by
    rw [h.rest]
    rfl
  rw [rebased]
  refine AllowsOperands.operands (fun reaches => ?_) fun tight o listed => ?_
  · rw [Array.toList_append, h.split]
    exact .of_append (h.reaches reaches) hnew
  · obtain ⟨reaches, held, below⟩ := h.held tight
    rw [Array.toList_append, List.drop_append_of_le_length reaches] at listed
    rcases List.mem_append.mp listed with old | added
    · exact below o old
    · obtain ⟨o', taken, same⟩ := List.mem_map.mp (values (List.mem_map_of_mem added))
      exact same ▸ held o' taken

theorem allowed [AllowsOperands R] {taken : List Operand} (h : Took m taken m') : R m m' := by
  have whole : R m _ := h.replace [] (fun p _ => Nat.zero_le _) (List.nil_subset _)
  rwa [Array.append_empty] at whole

/-- What was taken is stored into a local variable. -/
theorem stored [AllowsFrame R] {o : Operand} (h : Took m [o] m') {f f' : Frame} {rest : List Frame}
    {slot : Nat} {v : Value} (current : m'.thread.frames = f :: rest)
    (set : f.setLocal slot v = .ok f') (kind : o.value.HeldBy f.issued → v.HeldBy f.issued) :
    R m { m' with thread := { m'.thread with frames := f' :: rest } } := by
  obtain ⟨operands, rfl⟩ : ∃ operands, m' = m.withOperands operands := ⟨_, h.rest⟩
  have current : m.thread.frames = f :: rest := current
  have onward := Frame.setLocal_onward set
  have moved : { m.thread with frames := f' :: rest, operands } =
      { m.thread.setFrame f' with operands } := by
    rw [Thread.setFrame, current, List.tail_cons]
  show R m { m with thread := { m.thread with frames := f' :: rest, operands } }
  rw [moved]
  refine AllowsFrame.frame current onward (fun reaches => ?_) fun tight => ?_
  · have whole : Reworked m.base m.tag (operands.toList ++ [o]) (operands.toList ++ []) :=
      .of_append (h.reaches reaches) fun p _ => Nat.zero_le _
    rwa [List.append_nil, show operands.toList ++ [o] = m.operands from h.split.symm] at whole
  · obtain ⟨-, taken, below⟩ := h.held tight
    rw [Thread.issued_of_cons current] at taken below
    have same : f'.issued = f.issued := Frame.setLocal_issued set
    rw [same]
    exact ⟨(tight.thread.owns current).setLocal (kind (taken o (List.mem_singleton_self o))) set,
      below⟩

end Took

theorem popOperand_took {o : Operand} (h : popOperand s m = .ok o m') : Took m [o] m' := by
  unfold popOperand at h
  cases popped : m.thread.popOperand with
  | error e => rw [onThread_of_error popped] at h; cases h
  | ok result =>
      obtain ⟨o', t⟩ := result
      rw [onThread_of_ok popped] at h
      cases h
      obtain ⟨split, reaches, rfl⟩ := Thread.popOperand_eq_ok popped
      exact ⟨split, fun _ => reaches, rfl⟩

theorem pop_took {v : Value} (h : pop s m = .ok v m') :
    ∃ o : Operand, o.value = v ∧ Took m [o] m' := by
  obtain ⟨o, mid, popped, h⟩ := bind_eq_ok h
  cases h
  exact ⟨o, rfl, popOperand_took popped⟩

/-! ## Local variables -/

theorem loadLocal_keeps [AllowsFrame R] (kind : LocalKind) (slot : Nat) :
    Keeps R (loadLocal kind slot) := by
  intro s m
  refine Keeps.bind_after (frame_keeps s m) fun f mid found => ?_
  obtain ⟨rfl, rest, current⟩ := frame_eq_ok found
  refine Keeps.ofExcept_after fun v read => Keeps.ofExcept_after fun w loaded => ?_
  refine push_after fun tight => ?_
  rw [Thread.issued_of_cons current]
  exact ((tight.thread.owns current).getLocal read).asLocal loaded

/-- A value is popped and stored at once: in between nobody would know that it was the frame's. -/
theorem storeLocal_keeps [AllowsFrame R] (kind : LocalKind) (slot : Nat) :
    Keeps R (storeLocal kind slot) := by
  intro s m
  cases popped : pop s m with
  | error stop mid =>
      rw [storeLocal, after_of_error (bind_of_error popped)]
      exact pop_keeps.of_error popped
  | ok v mid =>
      have run : (storeLocal kind slot).after s m = (do
          let w ← ofExcept (asLocal kind v)
          moveFrame (·.setLocal slot w)).after s mid := by
        simp only [storeLocal, after, bind_of_ok popped]
      rw [run]
      obtain ⟨o, rfl, took⟩ := pop_took popped
      cases stored : asLocal kind o.value with
      | error e => exact took.allowed
      | ok w =>
          exact moveFrame_after took.allowed fun f rest f' current set =>
            took.stored current set fun held => held.asLocal stored

theorem incrementLocal_keeps [AllowsFrame R] (slot : Nat) (delta : Int32) :
    Keeps R (incrementLocal slot delta) := by
  refine frame_keeps.bind fun f => Keeps.bind (.ofExcept _) fun v => ?_
  exact Keeps.bind (.ofExcept _) fun n => setLocal_keeps slot rfl

/-! ## Shuffles -/

theorem takeWords_took {n excess : Nat} {taken all : List Operand}
    (h : takeWords n taken s m = .ok (all, excess) m') :
    ∃ new, all = new ++ taken ∧ Took m new m' := by
  -- the recursion takes one or two words at a time
  induction n, taken using takeWords.induct generalizing m with
  | case1 taken =>
      cases h
      exact ⟨[], rfl, .refl _⟩
  | case2 taken =>
      obtain ⟨o, mid, hpop, h⟩ := bind_eq_ok h
      cases h
      exact ⟨[o], rfl, popOperand_took hpop⟩
  | case3 n taken wide narrow =>
      obtain ⟨o, mid, hpop, h⟩ := bind_eq_ok h
      have first := popOperand_took hpop
      have more : ∃ new, all = new ++ (o :: taken) ∧ Took mid new m' := by
        split at h
        · exact wide o h
        · exact narrow o h
      obtain ⟨new, rfl, rest⟩ := more
      exact ⟨new ++ [o], by rw [List.append_assoc, List.singleton_append], first.trans rest⟩

theorem popWords_took {words : Nat} {taken : List Operand}
    (h : popWords words s m = .ok taken m') : Took m taken m' := by
  obtain ⟨⟨all, excess⟩, mid, htake, h⟩ := bind_eq_ok h
  obtain ⟨new, rfl, took⟩ := takeWords_took htake
  simp only at h
  split at h
  · cases h
    rwa [List.append_nil]
  · cases h

theorem takeWords_keeps [AllowsOperands R] (n : Nat) (taken : List Operand) :
    Keeps R (takeWords n taken) := by
  induction n, taken using takeWords.induct with
  | case1 taken => exact .pure _
  | case2 taken => exact popOperand_keeps.bind fun o => .pure _
  | case3 taken n wide narrow =>
      refine popOperand_keeps.bind fun o => ?_
      split
      · exact wide o
      · exact narrow o

theorem popWords_keeps [AllowsOperands R] (words : Nat) : Keeps R (popWords words) := by
  refine (takeWords_keeps words []).bind fun result => ?_
  obtain ⟨taken, excess⟩ := result
  dsimp only
  split
  · exact .pure _
  · exact .fail _

theorem pushBack_run (os : List Operand) :
    pushBack os s m = .ok () (m.withOperands (m.thread.operands ++ os.toArray)) := by
  induction os generalizing m with
  | nil => simp [pushBack, Machine.withOperands]
  | cons o os ih =>
      have first : pushOperand o s m = .ok () (m.withOperands (m.thread.operands.push o)) := rfl
      have run : pushBack (o :: os) = pushOperand o >>= fun _ => pushBack os := rfl
      rw [run, bind_of_ok first, ih]
      simp [Machine.withOperands]

theorem pushCopies_run (os : List Operand) : pushCopies os s m = .ok ()
    (m.withOperands (m.thread.operands ++
      (os.map fun o => (⟨o.value, m.tag⟩ : Operand)).toArray)) := by
  induction os generalizing m with
  | nil => simp [pushCopies, Machine.withOperands]
  | cons o os ih =>
      have first : push o.value s m =
          .ok () (m.withOperands (m.thread.operands.push ⟨o.value, m.tag⟩)) := rfl
      have run : pushCopies (o :: os) = push o.value >>= fun _ => pushCopies os := rfl
      rw [run, bind_of_ok first, ih]
      simp [Machine.withOperands, Machine.tag, Thread.instructionPc]

/-- Copies have the tag of the instruction. -/
theorem countP_copies {tag : Nat} {p : Operand → Bool} (hp : Foreign tag p) (os : List Operand) :
    (os.map fun o => (⟨o.value, tag⟩ : Operand)).countP p = 0 := by
  refine List.countP_eq_zero.mpr fun o ho => ?_
  obtain ⟨o', -, rfl⟩ := List.mem_map.mp ho
  simp [hp ⟨o'.value, tag⟩ rfl]

/-- A computation that pops words first reworks the operands if the rest of it does, seen from
where the popping began. -/
theorem popWords_bind [AllowsOperands R] {start : Machine} {above : List Operand} {words : Nat}
    {rest : List Operand → Exec Unit} (begun : Took start above m)
    (h : ∀ taken mid, Took start (taken ++ above) mid → R start ((rest taken).after s mid)) :
    R start ((popWords words >>= rest).after s m) := by
  cases popped : popWords words s m with
  | error stop mid =>
      rw [after_of_error (bind_of_error popped)]
      exact IsTrans.trans _ _ _ begun.allowed ((popWords_keeps words).of_error popped)
  | ok taken mid =>
      have run : (popWords words >>= rest).after s m = (rest taken).after s mid := by
        simp only [after, bind_of_ok popped]
      rw [run]
      exact h taken mid (begun.trans (popWords_took popped))

theorem duplicate_keeps [AllowsOperands R] (words : Nat) : Keeps R (duplicate words) := by
  intro s m
  refine popWords_bind (.refl m) fun top mid took => ?_
  rw [List.append_nil] at took
  rw [after_of_ok (by rw [bind_of_ok (pushCopies_run top), pushBack_run])]
  have whole : R m _ := took.replace ((top.map fun o => ⟨o.value, mid.tag⟩) ++ top)
    (fun p hp => Nat.le_of_eq <| by
      rw [List.countP_append, took.tag_eq, countP_copies hp, Nat.zero_add])
    (by simp [Function.comp_def])
  rwa [← List.append_toArray, ← Array.append_assoc] at whole

theorem duplicateUnder_keeps [AllowsOperands R] (words under : Nat) :
    Keeps R (duplicateUnder words under) := by
  intro s m
  refine popWords_bind (.refl m) fun top mid took => ?_
  refine popWords_bind took fun below mid took => ?_
  rw [List.append_nil] at took
  rw [after_of_ok (by
    rw [bind_of_ok (pushCopies_run top), bind_of_ok (pushBack_run below), pushBack_run])]
  have whole : R m _ := took.replace ((top.map fun o => ⟨o.value, mid.tag⟩) ++ (below ++ top))
    (fun p hp => Nat.le_of_eq <| by
      rw [List.countP_append, took.tag_eq, countP_copies hp, Nat.zero_add])
    (by simp [Function.comp_def])
  rwa [← List.append_toArray, ← List.append_toArray, ← Array.append_assoc,
    ← Array.append_assoc] at whole

theorem swap_keeps [AllowsOperands R] : Keeps R swap := by
  intro s m
  refine popWords_bind (.refl m) fun top mid took => ?_
  refine popWords_bind took fun below mid took => ?_
  rw [List.append_nil] at took
  rw [after_of_ok (by rw [bind_of_ok (pushBack_run top), pushBack_run])]
  have whole : R m _ := took.replace (top ++ below)
    (fun p hp => Nat.le_of_eq <| by rw [List.countP_append, List.countP_append, Nat.add_comm])
    (by simp)
  rwa [← List.append_toArray, ← Array.append_assoc] at whole

/-! ## Arithmetic -/

theorem arith_keeps [AllowsOperands R] [AllowsRaise R] (kind : NumberKind) (op : ArithOp) :
    Keeps R (arith kind op) := by
  cases kind with
  | int =>
      refine popInt_keeps.bind fun b => popInt_keeps.bind fun a => ?_
      split
      · exact push_keeps rfl
      · exact raise_keeps _ _
  | long =>
      refine popLong_keeps.bind fun b => popLong_keeps.bind fun a => ?_
      split
      · exact push_keeps rfl
      · exact raise_keeps _ _
  | float => exact popFloat_keeps.bind fun b => popFloat_keeps.bind fun a => push_keeps rfl
  | double => exact popDouble_keeps.bind fun b => popDouble_keeps.bind fun a => push_keeps rfl

theorem negate_keeps [AllowsOperands R] (kind : NumberKind) : Keeps R (negate kind) := by
  cases kind with
  | int => exact popInt_keeps.bind fun a => push_keeps rfl
  | long => exact popLong_keeps.bind fun a => push_keeps rfl
  | float => exact popFloat_keeps.bind fun a => push_keeps rfl
  | double => exact popDouble_keeps.bind fun a => push_keeps rfl

theorem shift_keeps [AllowsOperands R] (kind : WordKind) (op : ShiftOp) :
    Keeps R (shift kind op) := by
  refine popInt_keeps.bind fun amount => ?_
  cases kind with
  | int => exact popInt_keeps.bind fun a => push_keeps rfl
  | long => exact popLong_keeps.bind fun a => push_keeps rfl

theorem bitwise_keeps [AllowsOperands R] (kind : WordKind) (op : BitOp) :
    Keeps R (bitwise kind op) := by
  cases kind with
  | int => exact popInt_keeps.bind fun b => popInt_keeps.bind fun a => push_keeps rfl
  | long => exact popLong_keeps.bind fun b => popLong_keeps.bind fun a => push_keeps rfl

theorem convert_keeps [AllowsOperands R] (source target : NumberKind) :
    Keeps R (convert source target) :=
  pop_keeps.bind fun _ s m => Keeps.ofExcept_after fun _ converted =>
    push_keeps (Value.plain_converted converted) s m

theorem narrow_keeps [AllowsOperands R] (target : NarrowKind) : Keeps R (narrow target) := by
  refine popInt_keeps.bind fun a => ?_
  cases target <;> exact push_keeps rfl

theorem compareLongs_keeps [AllowsOperands R] : Keeps R compareLongs :=
  popLong_keeps.bind fun _ => popLong_keeps.bind fun _ => push_keeps rfl

theorem compareFloats_keeps [AllowsOperands R] (unordered : Int32) :
    Keeps R (compareFloats unordered) :=
  popFloat_keeps.bind fun _ => popFloat_keeps.bind fun _ => push_keeps rfl

theorem compareDoubles_keeps [AllowsOperands R] (unordered : Int32) :
    Keeps R (compareDoubles unordered) :=
  popDouble_keeps.bind fun _ => popDouble_keeps.bind fun _ => push_keeps rfl

/-! ## Branches -/

theorem branch_keeps [AllowsFrame R] (offset : Int32) : Keeps R (branch offset) :=
  moveFrame_keeps fun _ _ => Frame.branch_moves

theorem branchIf_keeps [AllowsFrame R] {condition : Exec Bool} (h : Keeps R condition) :
    Keeps R (branchIf condition) := by
  refine readI16_keeps.bind fun offset => h.bind fun taken => ?_
  split
  · exact branch_keeps _
  · exact .pure _

theorem popCompare_keeps [AllowsOperands R] (c : Condition) : Keeps R (popCompare c) :=
  popInt_keeps.bind fun _ => popInt_keeps.bind fun _ => .pure _

theorem popSame_keeps [AllowsOperands R] : Keeps R popSame := by
  refine pop_keeps.bind fun _ => Keeps.bind (.ofExcept _) fun b => ?_
  exact pop_keeps.bind fun _ => Keeps.bind (.ofExcept _) fun a => .pure _

theorem popNull_keeps [AllowsOperands R] : Keeps R popNull :=
  pop_keeps.bind fun _ => Keeps.bind (.ofExcept _) fun _ => .pure _

/-- A return address that is noted down is one of the current frame. -/
theorem issue_issued {pc : Nat} (h : moveFrame (fun f => .ok (f.issue pc)) s m = .ok () m') :
    pc ∈ m'.thread.issued := by
  cases current : m.thread.frames with
  | nil =>
      rw [moveFrame, onFrame, onThread_of_error (by rw [Thread.frame, current]; rfl)] at h
      cases h
  | cons f rest =>
      cases h.symm.trans (moveFrame_of_ok current rfl)
      exact List.mem_cons_self

theorem jumpSubroutine_keeps [AllowsFrame R] (offset : Int32) :
    Keeps R (jumpSubroutine offset) := by
  refine frame_keeps.bind fun f => (branch_keeps offset).bind fun _ s m => ?_
  have issuing : Keeps R (moveFrame fun g => .ok (g.issue f.pc)) :=
    moveFrame_keeps fun g _ h => by cases h; exact g.issue_moves f.pc
  refine Keeps.bind_after (issuing s m) fun _ mid issued => push_after fun _ pc address => ?_
  cases address
  exact issue_issued issued

theorem returnSubroutine_keeps [AllowsFrame R] (slot : Nat) : Keeps R (returnSubroutine slot) := by
  refine frame_keeps.bind fun f => Keeps.bind (.ofExcept _) fun v => ?_
  exact Keeps.bind (.ofExcept _) fun target => jump_keeps target

theorem skipPadding_keeps [AllowsFrame R] : Keeps R skipPadding :=
  moveFrame_keeps fun _ _ => Frame.advance_moves

theorem tableSwitch_keeps [AllowsFrame R] : Keeps R tableSwitch := by
  refine popInt_keeps.bind fun key => skipPadding_keeps.bind fun _ => ?_
  refine readI32_keeps.bind fun otherwise => readI32_keeps.bind fun low => ?_
  refine readI32_keeps.bind fun high => ?_
  split
  · exact .fail _
  · split
    · exact branch_keeps _
    · refine .bind (moveFrame_keeps fun _ _ => Frame.advance_moves) fun _ => ?_
      exact readI32_keeps.bind fun offset => branch_keeps offset

theorem searchPairs_keeps [AllowsFrame R] (key otherwise : Int32) :
    ∀ pairs : Nat, Keeps R (searchPairs key otherwise pairs)
  | 0 => branch_keeps otherwise
  | pairs + 1 => by
      refine readI32_keeps.bind fun candidate => readI32_keeps.bind fun offset => ?_
      split
      · exact branch_keeps offset
      · exact searchPairs_keeps key otherwise pairs

theorem lookupSwitch_keeps [AllowsFrame R] : Keeps R lookupSwitch := by
  refine popInt_keeps.bind fun key => skipPadding_keeps.bind fun _ => ?_
  refine readI32_keeps.bind fun otherwise => readI32_keeps.bind fun pairs => ?_
  split
  · exact .fail _
  · exact searchPairs_keeps _ _ _

/-! ## Constants and fields -/

theorem loadConstant_keeps [AllowsOperands R] [AllowsRaise R] (index : UInt16) :
    Keeps R (loadConstant index) := by
  unfold loadConstant
  refine frame_keeps.bind fun f => Keeps.bind (.ofExcept _) fun constant => ?_
  split
  · exact push_keeps rfl
  · exact push_keeps rfl
  · refine (intern_keeps _).bind fun string => ?_
    split
    · exact push_keeps rfl
    · exact .pure _
  · refine (resolveClass_keeps _).bind fun cls => ?_
    split
    · exact push_keeps rfl
    · exact .pure _
  · exact .fail _

theorem loadLongConstant_keeps [AllowsOperands R] (index : UInt16) :
    Keeps R (loadLongConstant index) := by
  unfold loadLongConstant
  refine frame_keeps.bind fun f => Keeps.bind (.ofExcept _) fun constant => ?_
  split
  · exact push_keeps rfl
  · exact push_keeps rfl
  · exact .fail _

theorem readClassName_keeps [AllowsFrame R] : Keeps R readClassName := by
  unfold readClassName
  refine readU16_keeps.bind fun index => frame_keeps.bind fun f => ?_
  refine Keeps.bind (.ofExcept _) fun constant => ?_
  split
  · exact .pure _
  · exact .fail _

theorem readFieldRef_keeps [AllowsFrame R] : Keeps R readFieldRef := by
  unfold readFieldRef
  refine readU16_keeps.bind fun index => frame_keeps.bind fun f => ?_
  refine Keeps.bind (.ofExcept _) fun constant => ?_
  split
  · exact .pure _
  · exact .fail _

theorem readMethodRef_keeps [AllowsFrame R] : Keeps R readMethodRef := by
  unfold readMethodRef
  refine readU16_keeps.bind fun index => frame_keeps.bind fun f => ?_
  refine Keeps.bind (.ofExcept _) fun constant => ?_
  split
  · exact .pure _
  · exact .pure _
  · exact .fail _

theorem readField_keeps [AllowsFrame R] [AllowsRaise R] (static : Bool) :
    Keeps R (readField static) := by
  unfold readField
  refine readFieldRef_keeps.bind fun ref => (resolveFieldRef_keeps ref).bind fun f => ?_
  split
  · exact .pure _
  · split
    · exact .pure _
    · exact (raise_keeps _ _).bind fun _ => .pure _

/-- A field that a reference means is remembered. -/
theorem resolveFieldRef_known {ref : MemberRef} {f : FieldRef} {s : Settings} {m m' : Machine}
    (h : resolveFieldRef ref s m = .ok (some f) m') :
    m'.world.fieldMemo.lookup (ref.className, ref.name) = some f := by
  obtain ⟨cls, mid, -, h⟩ := bind_eq_ok h
  cases cls with
  | none => cases h
  | some cls =>
      obtain ⟨field, last, resolved, h⟩ := bind_eq_ok h
      cases field with
      | some g =>
          cases h
          exact resolveField_ok resolved
      | none =>
          obtain ⟨_, _, -, h⟩ := bind_eq_ok h
          cases h

/-- A field that an instruction names is remembered, and static as the instruction needs it. -/
theorem readField_known {static : Bool} {f : FieldRef} {s : Settings} {m m' : Machine}
    (h : readField static s m = .ok (some f) m') :
    f.decl.flags.isStatic = static ∧ ∃ key, m'.world.fieldMemo.lookup key = some f := by
  obtain ⟨ref, mid, -, h⟩ := bind_eq_ok h
  obtain ⟨field, last, resolved, h⟩ := bind_eq_ok h
  cases field with
  | none => cases h
  | some g =>
      simp only at h
      split at h
      next same =>
        cases h
        exact ⟨same, _, resolveFieldRef_known resolved⟩
      next =>
        obtain ⟨_, _, -, h⟩ := bind_eq_ok h
        cases h

/-- What a static field holds is pushed. -/
theorem getStatic_push [AllowsOperands R] (f : FieldRef) :
    Keeps R (getStatic f >>= fun v => push v) := by
  intro s m
  have held : m.Tight → Value.HeldBy m.thread.issued _ := fun tight =>
    .of_plain (tight.world.getStatic f)
  exact push_after (s := s) held

theorem getInstanceField_keeps [AllowsFrame R] [AllowsRaise R] : Keeps R getInstanceField := by
  unfold getInstanceField
  refine (readField_keeps false).bind fun f => ?_
  split
  · exact .pure _
  · refine pop_keeps.bind fun v => ?_
    split
    · exact raise_keeps _ _
    · intro s m
      rw [after, bind_of_ok heap_run]
      exact Keeps.ofExcept_after fun v read => push_after fun tight =>
        .of_plain (tight.world.heap.getField read)
    · exact .fail _

theorem putInstanceField_keeps [AllowsFrame R] [AllowsRaise R] : Keeps R putInstanceField := by
  intro s m
  refine Keeps.bind_after (readField_keeps false s m) fun f m₀ read => ?_
  cases f with
  | none => exact Keeps.pure _ s m₀
  | some f =>
      obtain ⟨ofObjects, key, known⟩ := readField_known read
      refine Keeps.bind_after (pop_keeps s m₀) fun operand m₁ popped => ?_
      refine Keeps.ofExcept_after fun v fits => ?_
      refine Keeps.bind_after (pop_keeps s m₁) fun object m₂ popped' => ?_
      have first : m₀.WithinSameMonitors m₁ := pop_keeps.of_ok popped
      have second : m₁.WithinSameMonitors m₂ := pop_keeps.of_ok popped'
      split
      · exact (raise_keeps _ _) s m₂
      · exact setField_after
          (.coerced (second.world.known (first.world.known known)) ofObjects fits)
      · exact Keeps.fail _ s m₂

/-! ## Objects and arrays -/

theorem pushNewArray_keeps [AllowsOperands R] [AllowsRaise R] {kind : ElementKind}
    {descriptor : String} (agrees : kind = .ofArray descriptor) (count : Int32) :
    Keeps R (pushNewArray kind descriptor count) := by
  unfold pushNewArray
  split
  · exact raise_keeps _ _
  · refine (orOutOfMemory_keeps (allocate_keeps fun _ _ _ => .array agrees)).bind fun array => ?_
    split
    · exact push_keeps rfl
    · exact .pure _

theorem newArray_keeps [AllowsFrame R] [AllowsRaise R] : Keeps R newArray := by
  unfold newArray
  refine readU8_keeps.bind fun code => ?_
  split
  · exact .fail _
  next kind _ =>
    have agrees : kind = .ofArray ("[" ++ kind.descriptor) := by cases kind <;> rfl
    exact popInt_keeps.bind fun count => pushNewArray_keeps agrees count

/-- An array of what begins like an array or like an object has references as its elements. -/
theorem ofArray_reference {descriptor : String} {c : Char} {rest : List Char}
    (begins : c = '[' ∨ c = 'L') (list : descriptor.toList = '[' :: c :: rest) :
    ElementKind.reference = .ofArray descriptor := by
  rcases begins with rfl | rfl <;> simp [ElementKind.ofArray, ElementKind.ofDescriptor, list]

theorem newReferenceArray_keeps [AllowsFrame R] [AllowsRaise R] : Keeps R newReferenceArray := by
  unfold newReferenceArray
  refine readClassName_keeps.bind fun name => popInt_keeps.bind fun count => ?_
  split
  next bracket =>
    obtain ⟨rest, list⟩ := String.startsWith_string_iff.mp bracket
    have list : ("[" ++ name).toList = '[' :: '[' :: rest := by
      rw [String.toList_append, ← list]
      rfl
    exact pushNewArray_keeps (ofArray_reference (.inl rfl) list) count
  · refine (resolveClass_keeps name).bind fun cls => ?_
    split
    · exact .pure _
    · have list : ("[L" ++ name ++ ";").toList = '[' :: 'L' :: (name ++ ";").toList := by
        rw [String.append_assoc, String.toList_append]
        rfl
      exact pushNewArray_keeps (ofArray_reference (.inr rfl) list) count

theorem newMultiArray_keeps [AllowsFrame R] [AllowsRaise R] : Keeps R newMultiArray := by
  unfold newMultiArray
  refine readClassName_keeps.bind fun descriptor => readU8_keeps.bind fun dimensions => ?_
  dsimp only
  split
  · exact .fail _
  next bounded =>
    intro s m
    refine Keeps.bind_after (popInt_keeps.collectTimes _ _ s m) fun counts mid collected => ?_
    split
    · exact (raise_keeps _ _) s mid
    · -- as many lengths are given as counts were popped, and the descriptor has as many dimensions
      have size := collectTimes_size collected
      have given : counts.toList.reverse.map (fun c => c.toInt.toNat) ≠ [] := by
        rw [Ne, List.map_eq_nil_iff, List.reverse_eq_nil_iff, Array.toList_eq_nil_iff,
          ← Array.size_eq_zero_iff, size, Array.size_empty]
        omega
      have deep : (counts.toList.reverse.map fun c => c.toInt.toNat).length ≤
          (descriptor.toList.takeWhile (· == '[')).length := by
        simp only [List.length_map, List.length_reverse, Array.length_toList, size,
          Array.size_empty]
        omega
      refine ((orOutOfMemory_keeps (multiArray_keeps given deep)).bind fun array => ?_) s mid
      split
      · exact push_keeps rfl
      · exact .pure _

theorem pushArrayLength_keeps [AllowsOperands R] [AllowsRaise R] : Keeps R pushArrayLength := by
  unfold pushArrayLength
  refine pop_keeps.bind fun v => ?_
  split
  · exact raise_keeps _ _
  · exact heap_keeps.bind fun h => Keeps.bind (.ofExcept _) fun _ => push_keeps rfl
  · exact .fail _

theorem popArrayAt_keeps [AllowsOperands R] [AllowsRaise R] (index : Int32) :
    Keeps R (popArrayAt index) := by
  unfold popArrayAt
  refine pop_keeps.bind fun v => ?_
  split
  · exact (raise_keeps _ _).bind fun _ => .pure _
  · refine heap_keeps.bind fun h => Keeps.bind (.ofExcept _) fun length => ?_
    split
    · exact .pure _
    · exact (raise_keeps _ _).bind fun _ => .pure _
  · exact .fail _

theorem arrayLoad_keeps [AllowsOperands R] [AllowsRaise R] (kind : ElementKind) :
    Keeps R (arrayLoad kind) := by
  unfold arrayLoad
  refine popInt_keeps.bind fun index => (popArrayAt_keeps index).bind fun array => ?_
  split
  · exact .pure _
  · intro s m
    rw [after, bind_of_ok heap_run]
    refine Keeps.ofExcept_after fun element read => ?_
    split
    · exact Keeps.fail _ s m
    · exact Keeps.ofExcept_after fun v loaded => push_after fun tight =>
        .of_plain (Value.plain_operand (tight.world.heap.loadElement read) loaded)

theorem storeFitting_after [AllowsRaise R] {kind : ElementKind} {r : Handle} {index : Int32}
    {descriptor : String} {operand element : Value} {refused : Option String} {s : Settings}
    {m : Machine}
    (converted : ∀ a, m.world.heap.array r = .ok a →
      primitiveElement kind a.descriptor operand = .ok element)
    (fits : refused = none → kind = .reference → ∀ a, m.world.heap.array r = .ok a →
      m.world.Fits a.descriptor element) :
    R m ((storeFitting kind r index descriptor element refused).after s m) := by
  cases refused with
  | some source => exact raiseMisfit_keeps _ _ s m
  | none =>
      refine Keeps.bind_after (heap_keeps s m) fun _ _ look => ?_
      cases look
      refine Keeps.ofExcept_after fun a found => ?_
      refine Keeps.bind_after (heap_keeps s m) fun _ _ look => ?_
      cases look
      refine Keeps.ofExcept_after fun stored store => ?_
      exact AllowsWorld.world
        (.of_heap (.single (.element found (converted a found)
          (fun kind => fits rfl kind a found) store) rfl))

theorem arrayStore_keeps [AllowsOperands R] [AllowsRaise R] (kind : ElementKind) :
    Keeps R (arrayStore kind) := by
  unfold arrayStore
  refine pop_keeps.bind fun v => popInt_keeps.bind fun index => ?_
  refine (popArrayAt_keeps index).bind fun array => ?_
  split
  · exact .pure _
  next r =>
    intro s m
    refine Keeps.bind_after (heap_keeps s m) fun _ _ look => ?_
    cases look
    refine Keeps.ofExcept_after fun descriptor described => ?_
    refine Keeps.ofExcept_after fun element converted => ?_
    have named {a : ArrayEntry} (found : m.world.heap.array r = .ok a) :
        a.descriptor = descriptor := by
      simpa [Heap.arrayDescriptor, found, Except.map] using described
    dsimp only
    split
    · refine Keeps.bind_after (misfit_keeps _ _ s m) fun refused mid checked => ?_
      obtain ⟨rfl, fits⟩ := misfit_ok checked
      exact storeFitting_after (fun a found => named found ▸ converted)
        fun granted _ a found => named found ▸ fits granted
    next other =>
      refine Keeps.bind_after (Keeps.pure _ s m) fun refused mid granted => ?_
      cases granted
      exact storeFitting_after (fun a found => named found ▸ converted)
        fun _ reference => absurd reference other

/-! ## Types -/

theorem readTypeName_keeps [AllowsFrame R] [AllowsRaise R] : Keeps R readTypeName := by
  unfold readTypeName
  refine readClassName_keeps.bind fun name => ?_
  split
  · exact .pure _
  · refine (resolveClass_keeps name).bind fun cls => ?_
    split <;> exact .pure _

theorem checkCast_keeps [AllowsFrame R] [AllowsRaise R] : Keeps R checkCast := by
  unfold checkCast
  refine readTypeName_keeps.bind fun target => ?_
  split
  · exact .pure _
  · refine (peek_keeps 1).bind fun v => ?_
    split
    · exact .pure _
    · refine (runtimeTypeName_keeps v).bind fun source => library_keeps.bind fun lib => ?_
      split
      · exact .pure _
      · exact raise_keeps _ _

theorem instanceOf_keeps [AllowsFrame R] [AllowsRaise R] : Keeps R instanceOf := by
  unfold instanceOf
  refine readTypeName_keeps.bind fun target => ?_
  split
  · exact .pure _
  · refine pop_keeps.bind fun v => ?_
    dsimp only
    split
    · exact Keeps.bind (.pure _) fun answer => push_keeps rfl
    · refine (runtimeTypeName_keeps v).bind fun source => library_keeps.bind fun lib => ?_
      exact Keeps.bind (.pure _) fun answer => push_keeps rfl

/-! ## Throwing and synchronising -/

theorem throwReference_keeps [AllowsOperands R] [AllowsRaise R] : Keeps R throwReference := by
  unfold throwReference
  refine pop_keeps.bind fun v => ?_
  split
  · exact raise_keeps _ _
  · refine read_keeps.bind fun s => ?_
    split
    · refine heap_keeps.bind fun h => Keeps.bind (.ofExcept _) fun cls => ?_
      exact (report_keeps _).bind fun _ => setPending_keeps _
    · exact setPending_keeps _
  · exact .fail _

theorem monitorEnter_within : Keeps Machine.Within monitorEnter := by
  unfold monitorEnter
  refine pop_keeps.bind fun v => (monitorOf_keeps v).bind fun monitor => ?_
  split
  · exact pushMonitor_within _
  · exact raise_keeps _ _

theorem monitorExit_within : Keeps Machine.Within monitorExit := by
  unfold monitorExit
  refine pop_keeps.bind fun v => (monitorOf_keeps v).bind fun monitor => ?_
  split
  · exact raise_keeps _ _
  · refine (countStray_within _).bind fun _ => (popMonitor_within _).bind fun owned => ?_
    split
    · exact .pure _
    · exact raise_keeps _ _

theorem invokeOnArray_keeps [AllowsOperands R] [AllowsRaise R] (h : Handle) (ref : MemberRef) :
    Keeps R (invokeOnArray h ref) := by
  unfold invokeOnArray
  dsimp only
  split
  · refine pop_keeps.discard.bind fun _ => ?_
    refine (orOutOfMemory_keeps (allocate_keeps fun _ _ _ => .cloned)).bind fun copy => ?_
    split
    · exact push_keeps rfl
    · exact .pure _
  · exact .fail _

theorem readSlot_keeps [AllowsFrame R] : Keeps R readSlot := readU8_keeps.bind fun _ => .pure _

theorem performWide_keeps [AllowsFrame R] : Keeps R performWide := by
  unfold performWide
  refine readU8_keeps.bind fun byte => readU16_keeps.bind fun slot => ?_
  dsimp only
  split
  · exact loadLocal_keeps _ _
  · exact storeLocal_keeps _ _
  · exact returnSubroutine_keeps _
  · exact readI16_keeps.bind fun delta => incrementLocal_keeps _ _
  · exact frame_keeps.bind fun _ => .fail _

/-! ## Core natives -/

theorem hashCode_keeps [AllowsOperands R] [AllowsRaise R] : Keeps R hashCode := by
  unfold hashCode
  refine pop_keeps.bind fun v => ?_
  split
  · exact push_keeps rfl
  · refine Keeps.bind (.ofExcept _) fun h => ?_
    split
    · exact push_keeps rfl
    · exact raise_keeps _ _

theorem getName_keeps [AllowsOperands R] [AllowsRaise R] : Keeps R getName := by
  unfold getName
  refine pop_keeps.bind fun v => ?_
  split
  · refine (orOutOfMemory_keeps (newString_keeps _)).bind fun name => ?_
    split
    · exact push_keeps rfl
    · exact .pure _
  · exact raise_keeps _ _
  · exact .fail _

theorem arrayCopy_keeps [AllowsOperands R] [AllowsRaise R] : Keeps R arrayCopy := by
  unfold arrayCopy
  refine popInt_keeps.bind fun length => popInt_keeps.bind fun destPlace => ?_
  refine pop_keeps.bind fun dest => Keeps.bind (.ofExcept _) fun dest => ?_
  refine popInt_keeps.bind fun srcPlace => pop_keeps.bind fun src => ?_
  refine Keeps.bind (.ofExcept _) fun src => ?_
  split
  next src dest =>
    refine heap_keeps.bind fun h => Keeps.bind (.ofExcept _) fun fromArray => ?_
    have ending : ∀ toArray : Bool, Keeps R
        (if fromArray && toArray then copyElements src dest srcPlace destPlace length
          else raise Throwable.arrayStoreException none) := by
      intro toArray
      split
      · exact copyElements_keeps _ _ _ _ _
      · exact raise_keeps _ _
    dsimp only
    split
    · exact heap_keeps.bind fun h => Keeps.bind (.ofExcept _) ending
    · exact Keeps.bind (.pure _) ending
  next => exact raise_keeps _ _

theorem reportUncaught_keeps [AllowsOperands R] : Keeps R reportUncaught := by
  unfold reportUncaught
  refine pop_keeps.bind fun v => Keeps.bind (.ofExcept _) fun throwable => ?_
  refine pop_keeps.discard.bind fun _ => pop_keeps.discard.bind fun _ => ?_
  split
  · refine heap_keeps.bind fun h => Keeps.bind (.ofExcept _) fun cls => ?_
    exact report_keeps _
  · exact report_keeps _

end JavaMachine.Exec
