import JavaMachine.Proofs.Guests
import JavaMachine.Proofs.Reading

/-!
# String literals

A literal is looked up in a table of the strings that were made for literals before.  If it is not
there, then a string is made, and noted down when the memory has sufficed for it.

*One execution.*  The handle that is pushed is the one that the table has for the text afterwards.
When nothing is pushed, the table is as it was.

*A whole run.*  As long as nothing is freed, `World.Hoards` holds between the beginning of a run and
any later point of it: what the table has for a text stays so, and a string that is noted down was
not there before.  So no two texts of a table that was empty at the beginning share a string.
-/

namespace JavaMachine

open Exec Engine

/-! ## The table of literals -/

/-- Between two machines the table of literals is the same. -/
def Machine.SameLiterals (m m' : Machine) : Prop := m'.world.interned = m.world.interned

instance : AllowsReports Machine.SameLiterals where
  refl _ := rfl
  trans _ _ _ first second := Eq.trans second first
  reports _ _ _ := rfl
  remembers _ _ := rfl

namespace Exec

variable {α : Type} {x : Exec α} {s : Settings} {m m' : Machine} {text : String}

theorem allocate_literals (g : Heap → Except Fault (Handle × Heap)) :
    Keeps Machine.SameLiterals (allocate g) := fun _ _ => allocate_allowed fun _ _ _ => rfl

theorem newInstance_literals (cls : LoadedClass) (reserved : Bool) :
    Keeps Machine.SameLiterals (newInstance cls reserved) :=
  library_keeps.bind fun _ => allocate_literals _

theorem newCharacters_literals (text : String) :
    Keeps Machine.SameLiterals (newCharacters text) :=
  (allocate_literals _).bind fun _ => Keeps.bind (fun _ _ => rfl) fun _ => .pure _

theorem setField_literals (r : Handle) (f : FieldDecl) (v : Value) :
    Keeps Machine.SameLiterals (setField r f v) := fun _ _ => setField_allowed fun _ _ => rfl

theorem newString_literals (text : String) : Keeps Machine.SameLiterals (newString text) := by
  refine (findClass_keeps _).bind fun cls => (resolveField_keeps _ _).bind fun f => ?_
  split
  · exact .fail _
  · refine (newCharacters_literals text).bind fun _ => ?_
    refine (newInstance_literals cls false).bind fun _ => ?_
    exact (setField_literals _ _ _).bind fun _ => .pure _

theorem raiseOutOfMemory_literals : Keeps Machine.SameLiterals raiseOutOfMemory := by
  refine (report_keeps _).bind fun _ => (findClass_keeps _).bind fun cls => ?_
  exact (newInstance_literals cls true).bind fun _ _ _ => rfl

theorem orOutOfMemory_literals (hx : Keeps Machine.SameLiterals x) :
    Keeps Machine.SameLiterals (orOutOfMemory x) :=
  fun s m => orOutOfMemory_allowed raiseOutOfMemory_literals (hx s m)

/-- A literal is answered with the string that the table has for it afterwards, or nothing is
answered and the table is as it was. -/
theorem intern_cases (text : String) (s : Settings) (m : Machine) :
    (∃ r m', intern text s m = .ok (some r) m' ∧ m'.world.interned.lookup text = some r) ∨
    (∃ m', intern text s m = .ok none m' ∧ m.SameLiterals m') ∨
    ∃ stop m', intern text s m = .error stop m' ∧ m.SameLiterals m' := by
  rw [intern, bind_of_ok world_run]
  cases known : m.world.interned.lookup text with
  | some r => exact .inl ⟨r, m, rfl, known⟩
  | none =>
      have asking := orOutOfMemory_literals (newString_literals text)
      dsimp only
      cases asked : orOutOfMemory (newString text) s m with
      | error stop mid =>
          exact .inr (.inr ⟨stop, mid, bind_of_error asked, asking.of_error asked⟩)
      | ok string mid =>
          rw [bind_of_ok asked]
          cases string with
          | none => exact .inr (.inl ⟨mid, rfl, asking.of_ok asked⟩)
          | some r => exact .inl ⟨r, _, rfl, List.lookup_cons_self⟩

end Exec

/-! ## The instruction -/

/-- At the address of the frame stands an instruction that loads a constant, and the constant is a
text. -/
def Frame.FacesLiteral (f : Frame) (text : String) : Prop :=
  ∃ index : UInt16, f.cls.pool.entry index = .ok (.string text) ∧
    ((∃ byte : UInt8, f.Shows f.pc [0x12, byte] ∧ byte.toUInt16 = index) ∨
      f.Shows f.pc [0x13, (index >>> 8).toUInt8, index.toUInt8])

/-- The current frame of a thread stands in front of a text. -/
def Thread.FacesLiteral (t : Thread) (text : String) : Prop :=
  ∃ f rest, t.frames = f :: rest ∧ f.FacesLiteral text

/-- Between two machines a value was pushed. -/
def Machine.Pushes (m : Machine) (v : Value) (m' : Machine) : Prop :=
  ∃ pc, m'.thread.operands = m.thread.operands.push ⟨v, pc⟩

namespace Exec

variable {s : Settings} {m m' : Machine} {text : String} {f : Frame} {rest : List Frame}
  {operands : Array Operand} {events : Array Event} {pc : Nat} {host : Host} {flow : Flow}
  {v : Value}

/-- Pushes the string of a literal, if it is answered. -/
def pushLiteral (text : String) : Exec Unit := do
  match ← intern text with
  | some h => push (.object h)
  | none => pure ()

theorem loadConstant_run {index : UInt16} (entry : f.cls.pool.entry index = .ok (.string text)) :
    loadConstant index s (m.amid f rest operands events pc) =
      pushLiteral text s (m.amid f rest operands events pc) := by
  have current : frame s (m.amid f rest operands events pc) =
      .ok { f with pc, instructionPc := f.pc } (m.amid f rest operands events pc) :=
    frame_of_cons rfl
  rw [loadConstant, bind_of_ok current]
  dsimp only
  rw [entry]
  rfl

/-- The instruction comes to pushing the literal, from a machine that differs in the frame and the
reports. -/
theorem step_literal (host : Host) (s : Settings) (faces : m.thread.FacesLiteral text) :
    ∃ f rest events pc,
      step host s m = (do pushLiteral text; return .next : Exec Flow) s
        (m.amid f rest m.thread.operands events pc) := by
  obtain ⟨f, rest, current, index, entry, ⟨byte, shown, rfl⟩ | shown⟩ := faces
  · obtain ⟨events, fetched⟩ := fetch_run (s := s) current (shown.front [byte])
    have loaded : (do loadConstant (← readU8).toUInt16 : Exec Unit) s
        (m.amid f rest m.thread.operands events (f.pc + 1)) = pushLiteral text s _ :=
      (bind_of_ok (readU8_run (shown.back [0x12]))).trans (loadConstant_run entry)
    exact ⟨f, rest, events, _, (bind_of_ok fetched).trans (bind_of_same loaded)⟩
  · obtain ⟨events, fetched⟩ := fetch_run (s := s) current
      (shown.front [(index >>> 8).toUInt8, index.toUInt8])
    have loaded : (do loadConstant (← readU16) : Exec Unit) s
        (m.amid f rest m.thread.operands events (f.pc + 1)) = pushLiteral text s _ :=
      (bind_of_ok (readU16_run (shown.back [0x13]))).trans (loadConstant_run entry)
    exact ⟨f, rest, events, _, (bind_of_ok fetched).trans (bind_of_same loaded)⟩

theorem pushLiteral_core (text : String) : Keeps Machine.Core (pushLiteral text) := by
  refine (intern_keeps text).bind fun string => ?_
  split
  · exact push_keeps rfl
  · exact .pure _

/-- However the instruction ends, the classes are the same, and what is remembered is what was
remembered or what the library finds. -/
theorem step_sameClasses (host : Host) (s : Settings) (faces : m.thread.FacesLiteral text) :
    m.world.SameClasses ((step host).after s m).world := by
  obtain ⟨f, rest, events, pc, same⟩ := step_literal host s faces
  have kept := ((pushLiteral_core text).bind fun _ => Keeps.pure Flow.next) s
    (m.amid f rest m.thread.operands events pc)
  have after : (step host).after s m = (do pushLiteral text; return .next : Exec Flow).after s
      (m.amid f rest m.thread.operands events pc) := by
    simp only [Exec.after, same]
  have told : m.world.SameClasses (m.amid f rest m.thread.operands events pc).world :=
    ⟨rfl, rfl, fun _ => rfl, fun _ _ => .inl, rfl⟩
  exact after ▸ told.trans kept.world

/-- The instruction pushes the string that the table has for the text afterwards, or it pushes
nothing and leaves the table as it was. -/
theorem step_ends (host : Host) (s : Settings) (faces : m.thread.FacesLiteral text) :
    (∃ r m', step host s m = .ok .next m' ∧ m.Pushes (.object r) m' ∧
      m'.world.interned.lookup text = some r) ∨
    (∀ flow v m', step host s m = .ok flow m' → ¬ m.Pushes v m') ∧
      m.SameLiterals ((step host).after s m) := by
  obtain ⟨f, rest, events, pc, same⟩ := step_literal host s faces
  have sameStacks : Keeps Machine.SameStacks (intern text) := intern_keeps text
  obtain ⟨r, mid, answered, known⟩ | ⟨mid, refused, kept⟩ | ⟨stop, mid, failed, kept⟩ :=
    intern_cases text s (m.amid f rest m.thread.operands events pc)
  · have operands : mid.thread.operands = m.thread.operands :=
      Array.toList_inj.mp (sameStacks.of_ok answered).operands
    refine .inl ⟨r, _, same.trans (bind_of_ok (bind_of_ok answered)), ?_, known⟩
    exact ⟨_, congrArg (Array.push · _) operands⟩
  · have operands : mid.thread.operands = m.thread.operands :=
      Array.toList_inj.mp (sameStacks.of_ok refused).operands
    have run : step host s m = .ok .next mid := same.trans (bind_of_ok (bind_of_ok refused))
    refine .inr ⟨fun flow v m' h => ?_, after_of_ok run ▸ kept⟩
    cases run.symm.trans h
    rintro ⟨tag, pushed⟩
    have sizes := congrArg Array.size (operands.symm.trans pushed)
    rw [Array.size_push] at sizes
    exact absurd sizes (Nat.ne_of_lt (Nat.lt_succ_self _))
  · have run : step host s m = .error stop mid :=
      same.trans (bind_of_error (bind_of_error failed))
    exact .inr ⟨fun flow v m' h => (nomatch run.symm.trans h), after_of_error run ▸ kept⟩

/-- What the instruction pushes is the string that the table has for the text afterwards. -/
theorem step_pushes (faces : m.thread.FacesLiteral text) (h : step host s m = .ok flow m')
    (pushed : m.Pushes v m') : ∃ r, v = .object r ∧ m'.world.interned.lookup text = some r := by
  obtain ⟨r, mid, run, ⟨tag, pushed'⟩, known⟩ | ⟨none, -⟩ := step_ends host s faces
  · cases run.symm.trans h
    obtain ⟨tag', pushed⟩ := pushed
    cases (Array.push_eq_push.mp (pushed.symm.trans pushed')).1
    exact ⟨r, rfl, known⟩
  · exact absurd pushed (none flow v m' h)

theorem intern_granted (boot : m.world.library.Bootstrapped) (memo : m.world.MemoAgrees)
    (arena : m.world.heap.Arena) (room : m.world.heap.HasRoom 2) (text : String) :
    ∃ r m', intern text s m = .ok (some r) m' := by
  rw [intern, bind_of_ok world_run]
  cases known : m.world.interned.lookup text with
  | some r => exact ⟨r, m, rfl⟩
  | none =>
      obtain ⟨r, mid, made⟩ := newString_granted (s := s) boot memo arena room text
      have granted : orOutOfMemory (newString text) s m = .ok (some r) mid :=
        bind_of_ok (attempt_of_ok made)
      exact ⟨r, _, bind_of_ok granted⟩

/-- Where there is memory for a string the instruction pushes it. -/
theorem step_granted (boot : m.world.library.Bootstrapped) (memo : m.world.MemoAgrees)
    (arena : m.world.heap.Arena) (room : m.world.heap.HasRoom 2)
    (faces : m.thread.FacesLiteral text) :
    ∃ r m', step host s m = .ok .next m' ∧ m.Pushes (.object r) m' := by
  obtain ⟨f, rest, events, pc, same⟩ := step_literal host s faces
  obtain ⟨r, mid, answered⟩ := intern_granted (s := s)
    (m := m.amid f rest m.thread.operands events pc) boot memo arena room text
  have run : step host s m = .ok .next _ := same.trans (bind_of_ok (bind_of_ok answered))
  obtain ⟨r', m', run', pushed, -⟩ | ⟨none, -⟩ := step_ends host s faces
  · exact ⟨r', m', run', pushed⟩
  · have sameStacks : Machine.SameStacks _ mid := (intern_keeps text).of_ok answered
    have operands : mid.thread.operands = m.thread.operands :=
      Array.toList_inj.mp sameStacks.operands
    exact absurd ⟨_, congrArg (Array.push · _) operands⟩ (none _ (.object r) _ run)

end Exec

/-! ## Runs in which nothing is freed -/

namespace World

/-- Seen from a world with the books of its heap in order, nothing was freed, and what was noted down
in the table of literals are strings that were not there before. -/
def Hoards (w w' : World) : Prop := w.heap.Arena → w.Hoarded w'

instance : AllowsStirs Hoards where
  refl _ arena := .of_same arena (.refl _) rfl
  trans _ _ _ first second arena := (first arena).trans (second (first arena).arena)
  stirs stirs arena := (stirs arena).toHoarded

/-- What becomes of a world in which nothing is freed: threads execute instructions, call methods and
go on with their frames, one after the other, and in between the host does what it likes, but frees
nothing and leaves the table of literals alone.  What the engine does between two instructions is of
this kind too, so a run may also be taken apart into its instructions, those of the methods that an
instruction calls among them. -/
inductive Amasses (natives : Natives) (w : World) : World → Prop
  | refl : Amasses natives w w
  | instruction {mid : World} (t : Thread) (s : Settings) (budget : Nat) :
      Amasses natives w mid → Amasses natives w ((step (host natives budget)).after s ⟨mid, t⟩).world
  | call {mid : World} (t : Thread) (s : Settings) (budget : Nat) (cls : LoadedClass)
      (decl : MethodDecl) (args : List Value) : Amasses natives w mid →
      Amasses natives w ((Engine.call natives budget cls decl args).after s ⟨mid, t⟩).world
  | run {mid : World} (t : Thread) (s : Settings) (budget : Nat) : Amasses natives w mid →
      Amasses natives w ((Engine.run natives budget).after s ⟨mid, t⟩).world
  | beside {mid w' : World} (arena : mid.heap.Arena → w'.heap.Arena)
      (retains : mid.heap.Retains w'.heap) (same : w'.interned = mid.interned) :
      Amasses natives w mid → Amasses natives w w'

/-- A thread executes an instruction that loads a text, and a value is pushed. -/
def Loads (natives : Natives) (w : World) (text : String) (v : Value) (w' : World) : Prop :=
  ∃ (t : Thread) (s : Settings) (budget : Nat) (flow : Flow) (m' : Machine), t.FacesLiteral text ∧
    step (host natives budget) s ⟨w, t⟩ = .ok flow m' ∧ Machine.Pushes ⟨w, t⟩ v m' ∧ m'.world = w'

/-- A thread executes an instruction that loads a text, and no value is pushed. -/
def Declines (natives : Natives) (w : World) (text : String) (w' : World) : Prop :=
  ∃ (t : Thread) (s : Settings) (budget : Nat), t.FacesLiteral text ∧
    (∀ flow v m', step (host natives budget) s ⟨w, t⟩ = .ok flow m' →
      ¬ Machine.Pushes ⟨w, t⟩ v m') ∧
    ((step (host natives budget)).after s ⟨w, t⟩).world = w'

end World

namespace Exec

theorem setStatic_hoards (f : FieldRef) (v : Value) :
    Keeps (Machine.Seen World.Hoards) (setStatic f v) :=
  fun _ _ arena => .of_same arena (.refl _) rfl

theorem newInstance_hoards (cls : LoadedClass) (reserved : Bool) :
    Keeps (Machine.Seen World.Hoards) (newInstance cls reserved) := by
  refine library_keeps.bind fun lib s m arena => ?_
  exact allocate_allowed (R := Machine.Seen World.Hoards) (fun r heap made arena =>
    .of_same (arena.insert made) (arena.grown made).retains rfl) arena

end Exec

namespace World

variable {natives : Natives} {w₀ w w' : World}

section

variable (hn : ∀ n, natives.Abide (Machine.Seen Hoards) (reentry natives n))

include hn

theorem step_hoards (n : Nat) : Keeps (Machine.Seen Hoards) (step (host natives n)) :=
  step_seen (fun hr => putStaticField_seen hr setStatic_hoards)
    (fun hr => newObject_seen hr fun cls => newInstance_hoards cls false) hn n

theorem Amasses.hoards (h : w.Amasses natives w') : w.Hoards w' := by
  have entered (n : Nat) : (reentry natives n).Goes (.seeing Hoards) :=
    reentry_seen (fun hr => putStaticField_seen hr setStatic_hoards)
      (fun hr => newObject_seen hr fun cls => newInstance_hoards cls false) hn n
  induction h with
  | refl => exact Std.Refl.refl w
  | instruction t s n _ ih => exact IsTrans.trans _ _ _ ih (step_hoards hn n s ⟨_, t⟩)
  | call t s n cls decl args _ ih =>
      exact IsTrans.trans _ _ _ ih (((entered n).call cls decl args).keeps s ⟨_, t⟩)
  | run t s n _ ih => exact IsTrans.trans _ _ _ ih ((entered n).run.keeps s ⟨_, t⟩)
  | beside arena retains same _ ih =>
      exact IsTrans.trans _ _ _ ih fun ordered => .of_same (arena ordered) retains same

theorem Loads.hoards {text : String} {v : Value} (h : w.Loads natives text v w') : w.Hoards w' := by
  obtain ⟨t, s, n, flow, m', -, run, -, rfl⟩ := h
  exact (step_hoards hn n).of_ok run

end

theorem Loads.known {text : String} {v : Value} (h : w.Loads natives text v w') :
    ∃ r, v = .object r ∧ w'.interned.lookup text = some r := by
  obtain ⟨t, s, n, flow, m', faces, run, pushed, rfl⟩ := h
  exact step_pushes faces run pushed

end World

namespace Sample

/-- The class of strings and that of the memory error. -/
def alphabet : Library :=
  ⟨[{ cls with name := stringClassName, fields := [Library.charactersField] },
    { cls with name := Throwable.outOfMemoryError, id := 1 }]⟩

/-- A world with memory for three entries. -/
def lettered : World := { library := alphabet, heap := { capacity := some 3 } }

/-- A thread in front of one of two letters. -/
def lettering (index : UInt8) : Thread :=
  { id := 0, depths := [1], deepest := 1
    frames := [{ frame [0x12, index, 0xb1] [] 0 with
      cls := { cls with pool := #[.empty, .string "A", .string "B"] } }] }

/-- What the thread makes of a world. -/
def lettersAfter (index : UInt8) (w : World) : World :=
  ((step (host coreNatives 1)).after {} ⟨w, lettering index⟩).world

end Sample

namespace World

variable {natives : Natives} {w₀ w : World}

/-- Literals are interned.  Start with an empty table of literals, and let nothing be freed.  Then of
any two texts that are loaded, whatever is done in between, the same handle is pushed exactly if they
are the same text.  What was pushed is the handle of a string, and stays so.  An execution that pushes
nothing leaves the table as it was, and as soon as there is memory for two more entries every text is
loaded again, if the class of strings is the one that the machine brings along. -/
theorem Amasses.literals_interned
    (hn : ∀ n, natives.Abide (Machine.Seen Hoards) (reentry natives n))
    (empty : w₀.interned = []) (arena : w₀.heap.Arena) (run : w₀.Amasses natives w) :
    (∀ {text text' v v' w₁ w₂ w₃}, w.Loads natives text v w₁ → w₁.Amasses natives w₂ →
      w₂.Loads natives text' v' w₃ → (v = v' ↔ text = text')) ∧
    (∀ {text v w₁ w₂}, w.Loads natives text v w₁ → w₁.Amasses natives w₂ →
      ∃ r, v = .object r ∧ w₂.heap.typeName v = .ok stringClassName) ∧
    ∀ {text w'}, w.Declines natives text w' → w'.interned = w.interned ∧
      (w.library.Bootstrapped → w.MemoAgrees → ∀ heap : Heap, heap.Arena → heap.HasRoom 2 →
        ∀ {text' t} (s : Settings) (budget : Nat), t.FacesLiteral text' →
          ∃ r m', step (host natives budget) s ⟨{ w' with heap }, t⟩ = .ok .next m' ∧
            Machine.Pushes ⟨{ w' with heap }, t⟩ (.object r) m') := by
  have hoarded := run.hoards hn arena
  refine ⟨fun {text text' v v' w₁ w₂ w₃} first between second => ?_,
    fun {text v w₁ w₂} first later => ?_, fun {text w'} declined => ?_⟩
  · obtain ⟨r, rfl, known⟩ := first.known
    obtain ⟨r', rfl, known'⟩ := second.known
    -- the first text still has its string when the second one is loaded
    have hoarded₁ := hoarded.trans (first.hoards hn hoarded.arena)
    have hoarded₂ := (between.hoards hn hoarded₁.arena)
    have hoarded₃ := hoarded₂.trans (second.hoards hn hoarded₂.arena)
    have still := hoarded₃.known known
    constructor
    · intro same
      cases same
      have none (text : String) : w₀.interned.lookup text = none := by rw [empty]; rfl
      exact (hoarded₁.trans hoarded₃).apart (none text) (none text') still known'
    · rintro rfl
      cases still.symm.trans known'
      rfl
  · obtain ⟨r, rfl, known⟩ := first.known
    have hoarded₁ := hoarded.trans (first.hoards hn hoarded.arena)
    obtain old | ⟨-, named⟩ := hoarded₁.fresh known
    · rw [empty] at old
      cases old
    · exact ⟨r, rfl, (later.hoards hn hoarded₁.arena).retains.typeName named⟩
  · obtain ⟨t, s, n, faces, none, after⟩ := declined
    obtain ⟨r, m', pushes, pushed, -⟩ | ⟨-, kept⟩ :=
      step_ends (m := ⟨w, t⟩) (host natives n) s faces
    · exact absurd pushed (none _ _ m' pushes)
    · have sameClasses := step_sameClasses (m := ⟨w, t⟩) (host natives n) s faces
      rw [after] at sameClasses
      refine ⟨after ▸ kept, fun boot memo heap ordered room {text' t'} s' n' faces' => ?_⟩
      exact step_granted (m := ⟨{ w' with heap }, t'⟩) (sameClasses.library.symm ▸ boot)
        (memo.sameClasses sameClasses) ordered room faces'

/-- The first letter is loaded.  There is no memory left for the second one, and the first one is
loaded again. -/
theorem Amasses.literals_interned_letters :
    let w₁ := Sample.lettersAfter 1 Sample.lettered
    let w₂ := Sample.lettersAfter 2 w₁
    Sample.lettered.Loads coreNatives "A" (.object ⟨1⟩) w₁ ∧ w₁.Declines coreNatives "B" w₂ ∧
      w₂.interned = w₁.interned ∧ ∃ v w₃, w₂.Loads coreNatives "A" v w₃ ∧ v = .object ⟨1⟩ ∧
        w₂.heap.typeName v = .ok stringClassName := by
  intro w₁ w₂
  have first : (Sample.lettering 1).FacesLiteral "A" :=
    ⟨_, _, rfl, 1, rfl, .inl ⟨1, ⟨[0xb1], rfl⟩, rfl⟩⟩
  have second : (Sample.lettering 2).FacesLiteral "B" :=
    ⟨_, _, rfl, 2, rfl, .inl ⟨2, ⟨[0xb1], rfl⟩, rfl⟩⟩
  have abide : ∀ n, coreNatives.Abide (Machine.Seen Hoards) (reentry coreNatives n) :=
    fun _ => coreNatives_abide _
  have loads : Sample.lettered.Loads coreNatives "A" (.object ⟨1⟩) w₁ :=
    ⟨_, {}, 1, .next, _, first, rfl, ⟨0, rfl⟩, rfl⟩
  have again : w₂.Loads coreNatives "A" (.object ⟨1⟩) (Sample.lettersAfter 1 w₂) :=
    ⟨_, {}, 1, .next, _, first, rfl, ⟨0, rfl⟩, rfl⟩
  have declines : w₁.Declines coreNatives "B" w₂ := by
    refine ⟨_, {}, 1, second, fun flow v m' run => ?_, rfl⟩
    rintro ⟨pc, pushed⟩
    have refused : m'.thread.operands = #[] := by
      cases run
      rfl
    exact Array.push_ne_empty (pushed.symm.trans refused)
  have between : w₁.Amasses coreNatives w₂ := .instruction (Sample.lettering 2) {} 1 .refl
  have arena : Sample.lettered.heap.Arena := .blank (some 3) none
  obtain ⟨same, strings, -⟩ := literals_interned abide rfl arena .refl
  obtain ⟨-, -, table⟩ :=
    literals_interned abide rfl arena (.instruction (Sample.lettering 1) {} 1 .refl)
  obtain ⟨r, object, named⟩ := strings loads between
  exact ⟨loads, declines, (table declines).1, _, _, again, (same loads between again).mpr rfl, named⟩

end World

end JavaMachine
