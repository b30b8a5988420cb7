import JavaMachine.Proofs.Stacks

/-!
# Computations that ask for no memory

A computation is frugal if nothing is refused to it and it does not fail for lack of memory.  Every
function of the machine that neither allocates nor calls a method is frugal, because its faults are
others: an operand of the wrong kind, a dangling handle, an address outside of the code.

Such a function is a sequence of smaller ones and of pure operations whose result it takes.  `Sober`
says of a pure operation that its faults are others.  It is a class, so that a sequence only has to
say where it takes a result (`Frugal.ofExcept`) and not of which operation.
-/

namespace JavaMachine

/-! ## Pure operations -/

/-- A pure operation does not fail for lack of memory. -/
class Sober {α : Type} (r : Except Fault α) : Prop where
  /-- A fault has another cause. -/
  sober : ∀ {e}, r = .error e → e.isOutOfMemory = false

namespace Sober

variable {α β : Type} {r r' : Except Fault α} {g : α → Except Fault β}

instance ok (a : α) : Sober (.ok a) := ⟨nofun⟩

instance pure (a : α) : Sober (Pure.pure a) := ⟨nofun⟩

theorem error {e : Fault} (h : e.isOutOfMemory = false) :
    Sober (.error e : Except Fault α) where
  sober failed := by
    cases failed
    exact h

instance bind [hr : Sober r] [hg : ∀ a, Sober (g a)] : Sober (r >>= g) where
  sober {e} failed := by
    cases r with
    | error e =>
        cases failed
        exact hr.sober rfl
    | ok a => exact (hg a).sober failed

instance map {g : α → β} [hr : Sober r] : Sober (r.map g) where
  sober {e} failed := by
    cases r with
    | error e =>
        cases failed
        exact hr.sober rfl
    | ok a => cases failed

theorem ite {c : Prop} [Decidable c] (hr : Sober r) (hr' : Sober r') :
    Sober (if c then r else r') := by
  split <;> assumption

end Sober

namespace Value

variable (v : Value)

instance asInt_sober : Sober v.asInt := by cases v <;> first | exact .ok _ | exact .error rfl

instance asLong_sober : Sober v.asLong := by cases v <;> first | exact .ok _ | exact .error rfl

instance asFloat_sober : Sober v.asFloat := by cases v <;> first | exact .ok _ | exact .error rfl

instance asDouble_sober : Sober v.asDouble := by cases v <;> first | exact .ok _ | exact .error rfl

instance asReturnAddress_sober : Sober v.asReturnAddress := by
  cases v <;> first | exact .ok _ | exact .error rfl

instance asHandle_sober : Sober v.asHandle := by cases v <;> first | exact .ok _ | exact .error rfl

instance asReference_sober : Sober v.asReference := by
  cases v <;> first | exact .ok _ | exact .error rfl

instance coerceTo_sober (t : JType) : Sober (v.coerceTo t) := by
  cases t with
  | reference | array => exact v.asReference_sober
  | void => exact .error rfl
  | _ => exact .map

end Value

namespace Heap

variable (h : Heap) (r : Handle)

instance cell_sober : Sober (h.cell r) := by
  unfold cell
  split
  · exact .ok _
  · exact .error rfl

instance entry_sober : Sober (h.entry r) := .map

instance object_sober : Sober (h.object r) := by
  have read (e : Entry) : Sober (match e with
      | .object cls slots => .ok (cls, slots)
      | .array _ => .error (.typeMismatch "object" "array")) := by
    cases e with
    | object => exact .ok _
    | array => exact .error rfl
  exact .bind

instance array_sober : Sober (h.array r) := by
  have read (e : Entry) : Sober (match e with
      | .array a => .ok a
      | .object .. => .error (.typeMismatch "array" "object")) := by
    cases e with
    | object => exact .error rfl
    | array => exact .ok _
  exact .bind

instance isArray_sober : Sober (h.isArray r) := by
  have read (e : Entry) : Sober (match e with
      | .array _ => Pure.pure true
      | .object .. => Pure.pure false) := by
    cases e <;> exact .pure _
  exact .bind

instance classOf_sober : Sober (h.classOf r) := .map

instance serialOf_sober : Sober (h.serialOf r) := .map

instance getField_sober (f : FieldDecl) : Sober (h.getField r f) := by
  refine @Sober.bind _ _ _ _ (h.object_sober r) fun o => ?_
  dsimp only
  split
  · exact .pure _
  · exact .error rfl

instance setField_sober (f : FieldDecl) (v : Value) : Sober (h.setField r f v) :=
  @Sober.bind _ _ _ _ (h.object_sober r) fun _ => .ite (.pure _) (.error rfl)

instance fieldByName_sober (name : String) : Sober (h.fieldByName r name) :=
  @Sober.bind _ _ _ _ (h.object_sober r) fun _ => .pure _

instance arrayLength_sober : Sober (h.arrayLength r) := .map

instance arrayDescriptor_sober : Sober (h.arrayDescriptor r) := .map

instance loadElement_sober (index : Int32) : Sober (h.loadElement r index) :=
  @Sober.bind _ _ _ _ (h.array_sober r) fun _ => .pure _

instance storeElement_sober (index : Int32) (v : Value) : Sober (h.storeElement r index v) := by
  refine @Sober.bind _ _ _ _ (h.array_sober r) fun a => ?_
  split <;> exact .pure _

end Heap

namespace Frame

variable (f : Frame)

instance jump_sober (target : Nat) : Sober (f.jump target) := .ite (.ok _) (.error rfl)

instance branch_sober (offset : Int32) : Sober (f.branch offset) :=
  .ite (.error rfl) (f.jump_sober _)

instance advance_sober (count : Nat) : Sober (f.advance count) := .ite (.ok _) (.error rfl)

instance readBytes_sober (count : Nat) : Sober (f.readBytes count) := .bind

instance getLocal_sober (index : Nat) : Sober (f.getLocal index) := by
  unfold getLocal
  split
  · exact .ok _
  · exact .error rfl

instance setLocal_sober (index : Nat) (v : Value) : Sober (f.setLocal index v) :=
  .ite (.error rfl) (.ok _)

theorem placeArgs_sober {args : List Value} {slots : Array Value} {index : Nat} :
    Sober (placeArgs slots index args) := by
  induction args generalizing slots index with
  | nil => exact .ok _
  | cons v rest ih => exact .ite (.error rfl) ih

instance localsOf_sober (m : MethodDecl) (args : List Value) : Sober (localsOf m args) :=
  placeArgs_sober

end Frame

namespace Thread

variable (t : Thread)

instance frame_sober : Sober t.frame := by
  unfold frame
  split
  · exact .ok _
  · exact .error rfl

instance popOperand_sober : Sober t.popOperand := by
  refine .ite (.error rfl) ?_
  split
  · exact .ok _
  · exact .error rfl

instance peek_sober (n : Nat) : Sober (t.peek n) := by
  refine .ite (.error rfl) ?_
  split
  · exact .ok _
  · exact .error rfl

instance closeDepth_sober : Sober t.closeDepth := by
  unfold closeDepth
  split
  · exact .ok _
  · exact .error rfl

instance deepen_sober : Sober t.deepen := by
  unfold deepen
  split
  · exact .ok _
  · exact .error rfl

instance shallow_sober : Sober t.shallow := by
  unfold shallow
  split
  · exact .ok _
  · exact .error rfl
  · exact .error rfl

end Thread

instance Pool.entry_sober (pool : Pool) (index : UInt16) : Sober (pool.entry index) := by
  unfold entry
  split
  · exact .ok _
  · exact .error rfl

instance Library.find_sober (lib : Library) (name : String) : Sober (lib.find name) := by
  unfold find
  split
  · exact .ok _
  · exact .error rfl

namespace MethodType

theorem readArgs_sober {whole : Fault} (h : whole.isOutOfMemory = false) {fuel : Nat}
    {text : List Char} : Sober (readArgs whole fuel text) := by
  induction fuel generalizing text with
  | zero =>
      cases text with
      | nil => exact .ok _
      | cons => exact .error rfl
  | succ fuel ih =>
      cases text with
      | nil => exact .ok _
      | cons =>
          unfold readArgs
          split
          · exact .error rfl
          · exact .error h
          · exact .map

instance parse_sober (text : String) : Sober (parse text) := by
  unfold parse
  split
  · exact .error rfl
  · split
    · exact .error rfl
    · have args := @readArgs_sober (.invalidDescriptor text) rfl
      exact .ite .map (.error rfl)

end MethodType

namespace Exec

instance asLocal_sober (kind : LocalKind) (v : Value) : Sober (asLocal kind v) := by
  cases kind with
  | reference => exact v.asReference_sober
  | _ => exact .map

instance converted_sober (source target : NumberKind) (v : Value) :
    Sober (converted source target v) := by
  cases source <;> cases target <;> exact .bind

instance elementOperand_sober (kind : ElementKind) (v : Value) :
    Sober (elementOperand kind v) := by
  cases kind with
  | boolean | byte | char | short => exact .map
  | _ => exact .ok _

instance primitiveElement_sober (kind : ElementKind) (descriptor : String) (v : Value) :
    Sober (primitiveElement kind descriptor v) := by
  cases kind with
  | byte | boolean =>
      dsimp only [primitiveElement]
      split <;> exact .map
  | reference => exact v.asReference_sober
  | _ => exact .map

end Exec

/-! ## Computations -/

/-- Between two machines no allocation was refused, and the library is the same. -/
structure Machine.Granted (m m' : Machine) : Prop where
  /-- No more allocations were refused. -/
  refusals : m'.world.refusals = m.world.refusals
  /-- The library is the same. -/
  library : m'.world.library = m.world.library

theorem Machine.Granted.refl (m : Machine) : m.Granted m := ⟨rfl, rfl⟩

theorem Machine.Granted.trans {a b c : Machine} (first : a.Granted b) (second : b.Granted c) :
    a.Granted c :=
  ⟨second.refusals.trans first.refusals, second.library.trans first.library⟩

namespace Exec

variable {α β : Type} {x : Exec α} {f : α → Exec β}

/-- Nothing is refused to a computation, and it does not fail for lack of memory. -/
structure Frugal (x : Exec α) : Prop where
  /-- Nothing was refused when it has a result. -/
  ok : ∀ {s m a m'}, x s m = .ok a m' → m.Granted m'
  /-- Nothing was refused when it fails. -/
  fault : ∀ {s m e m'}, x s m = .error (.fault e) m' → m.Granted m' ∧ e.isOutOfMemory = false

namespace Frugal

theorem pure (a : α) : Frugal (Pure.pure a : Exec α) where
  ok h := by cases h; exact .refl _
  fault h := by cases h

theorem bind (hx : Frugal x) (hf : ∀ a, Frugal (f a)) : Frugal (x >>= f) where
  ok h := by
    obtain ⟨a, mid, first, second⟩ := bind_eq_ok h
    exact (hx.ok first).trans ((hf a).ok second)
  fault h := by
    obtain first | ⟨a, mid, first, second⟩ := bind_eq_error h
    · exact hx.fault first
    · obtain ⟨granted, sober⟩ := (hf a).fault second
      exact ⟨(hx.ok first).trans granted, sober⟩

theorem map {g : α → β} (hx : Frugal x) : Frugal (g <$> x) := by
  rw [map_eq_pure_bind]
  exact hx.bind fun a => .pure (g a)

theorem discard (hx : Frugal x) : Frugal (Functor.discard x) := hx.map

theorem ite {c : Prop} [Decidable c] {y : Exec α} (hx : Frugal x) (hy : Frugal y) :
    Frugal (if c then x else y) := by
  split <;> assumption

theorem fail {e : Fault} (sober : e.isOutOfMemory = false) :
    Frugal (fail e : Exec α) where
  ok h := by cases h
  fault h := by
    cases h
    exact ⟨.refl _, sober⟩

theorem ofExcept {r : Except Fault α} [hr : Sober r] : Frugal (ofExcept r) := by
  cases r with
  | ok a => exact .pure a
  | error e => exact .fail (hr.sober rfl)

theorem blocked : Frugal (throw .blocked : Exec α) := ⟨nofun, nofun⟩

theorem exhausted : Frugal (throw .exhausted : Exec α) := ⟨nofun, nofun⟩

/-- A computation that always has a result and leaves the machine as it is. -/
theorem of_eq {g : Settings → Machine → α} (h : ∀ s m, x s m = .ok (g s m) m) : Frugal x where
  ok run := by
    rw [h] at run
    cases run
    exact .refl _
  fault run := by
    rw [h] at run
    cases run

theorem forM_list {γ : Type} {g : γ → Exec PUnit} (hg : ∀ c, Frugal (g c)) :
    ∀ l : List γ, Frugal (l.forM g)
  | [] => .pure _
  | c :: l => (hg c).bind fun _ => forM_list hg l

theorem forM_option {γ : Type} {g : γ → Exec PUnit} (hg : ∀ c, Frugal (g c)) :
    ∀ o : Option γ, Frugal (o.forM g)
  | none => .pure _
  | some c => hg c

theorem collectTimes (hx : Frugal x) :
    ∀ (n : Nat) (results : Array α), Frugal (collectTimes x n results)
  | 0, _ => .pure _
  | n + 1, _ => hx.bind fun _ => collectTimes hx n _

end Frugal

/-! ### The parts of a machine -/

theorem get_frugal : Frugal (get : Exec Machine) := .of_eq fun _ _ => rfl

theorem read_frugal : Frugal (read : Exec Settings) := .of_eq fun _ _ => rfl

theorem world_frugal : Frugal world := .of_eq fun _ _ => rfl

theorem thread_frugal : Frugal thread := .of_eq fun _ _ => rfl

theorem heap_frugal : Frugal heap := .of_eq fun _ _ => rfl

theorem library_frugal : Frugal library := .of_eq fun _ _ => rfl

theorem isHalted_frugal : Frugal isHalted := .of_eq fun _ _ => rfl

/-- A change of the world that neither counts a refusal nor changes the library. -/
theorem modifyWorld_frugal {g : World → World} (refusals : ∀ w, (g w).refusals = w.refusals)
    (library : ∀ w, (g w).library = w.library) : Frugal (modifyWorld g) where
  ok h := by
    cases h
    exact ⟨refusals _, library _⟩
  fault h := by cases h

theorem modifyThread_frugal (g : Thread → Thread) : Frugal (modifyThread g) where
  ok h := by
    cases h
    exact ⟨rfl, rfl⟩
  fault h := by cases h

theorem onThread_frugal {g : Thread → Except Fault (α × Thread)}
    [hg : ∀ t, Sober (g t)] : Frugal (onThread g) where
  ok {s m a m'} h := by
    cases run : g m.thread with
    | error e =>
        rw [onThread_of_error run] at h
        cases h
    | ok result =>
        rw [onThread_of_ok (t := result.2) run] at h
        cases h
        exact ⟨rfl, rfl⟩
  fault {s m e m'} h := by
    cases run : g m.thread with
    | error e =>
        rw [onThread_of_error run] at h
        cases h
        exact ⟨.refl m, (hg m.thread).sober run⟩
    | ok result =>
        rw [onThread_of_ok (t := result.2) run] at h
        cases h

theorem onFrame_frugal {g : Frame → Except Fault (α × Frame)} [∀ f, Sober (g f)] :
    Frugal (onFrame g) := onThread_frugal

theorem moveFrame_frugal {g : Frame → Except Fault Frame} [∀ f, Sober (g f)] :
    Frugal (moveFrame g) := onFrame_frugal

theorem report_frugal (e : Event) : Frugal (report e) := by
  refine .bind read_frugal fun s => .ite (modifyWorld_frugal ?_ ?_) (.pure _) <;> intro w <;> rfl

theorem record_frugal (o : Occurrence) : Frugal (record o) :=
  modifyWorld_frugal (fun _ => rfl) fun _ => rfl

theorem setHeap_frugal (h : Heap) : Frugal (setHeap h) :=
  modifyWorld_frugal (fun _ => rfl) fun _ => rfl

theorem frame_frugal : Frugal frame := thread_frugal.bind fun _ => .ofExcept

theorem push_frugal (v : Value) : Frugal (push v) := modifyThread_frugal _

theorem hand_frugal (v : Value) : Frugal (hand v) := modifyThread_frugal _

theorem pushOperand_frugal (o : Operand) : Frugal (pushOperand o) := modifyThread_frugal _

theorem popOperand_frugal : Frugal popOperand := onThread_frugal

theorem pop_frugal : Frugal pop := popOperand_frugal.bind fun _ => .pure _

theorem peek_frugal (n : Nat) : Frugal (peek n) := thread_frugal.bind fun _ => .ofExcept

theorem popInt_frugal : Frugal popInt := pop_frugal.bind fun _ => .ofExcept

theorem popLong_frugal : Frugal popLong := pop_frugal.bind fun _ => .ofExcept

theorem popFloat_frugal : Frugal popFloat := pop_frugal.bind fun _ => .ofExcept

theorem popDouble_frugal : Frugal popDouble := pop_frugal.bind fun _ => .ofExcept

theorem readU8_frugal : Frugal readU8 := onFrame_frugal.bind fun _ => .pure _

theorem readI8_frugal : Frugal readI8 := readU8_frugal.bind fun _ => .pure _

theorem readU16_frugal : Frugal readU16 := onFrame_frugal.bind fun _ => .pure _

theorem readI16_frugal : Frugal readI16 := readU16_frugal.bind fun _ => .pure _

theorem readI32_frugal : Frugal readI32 := onFrame_frugal.bind fun _ => .pure _

theorem setPending_frugal (h : Handle) : Frugal (setPending h) := modifyThread_frugal _

theorem takePending_frugal : Frugal takePending :=
  thread_frugal.bind fun _ => (modifyThread_frugal _).bind fun _ => .pure _

/-! ### Classes, fields and threads -/

theorem findClass_frugal (name : String) : Frugal (findClass name) :=
  library_frugal.bind fun _ => .ofExcept

theorem initState_frugal (id : Nat) : Frugal (initState id) := world_frugal.bind fun _ => .pure _

theorem setInitState_frugal (id : Nat) (i : InitState) : Frugal (setInitState id i) :=
  .bind (initState_frugal id) fun _ => .bind (record_frugal _) fun _ =>
    modifyWorld_frugal (fun _ => rfl) fun _ => rfl

theorem useClass_frugal (id : Nat) : Frugal (useClass id) :=
  thread_frugal.bind fun _ => (initState_frugal id).bind fun _ => record_frugal _

theorem getStatic_frugal (f : FieldRef) : Frugal (getStatic f) := world_frugal.bind fun _ => .pure _

theorem setStatic_frugal (f : FieldRef) (v : Value) : Frugal (setStatic f v) :=
  modifyWorld_frugal (fun _ => rfl) fun _ => rfl

theorem halt_frugal : Frugal halt :=
  .bind (report_frugal _) fun _ => modifyWorld_frugal (fun _ => rfl) fun _ => rfl

theorem pauseToken_frugal (id : TokenId) : Frugal (pauseToken id) :=
  world_frugal.bind fun _ => .pure _

theorem modifyToken_frugal (id : TokenId) (f : PauseToken → PauseToken) :
    Frugal (modifyToken id f) := modifyWorld_frugal (fun _ => rfl) fun _ => rfl

theorem settleToken_frugal (id : TokenId) : Frugal (settleToken id) := by
  refine .bind (pauseToken_frugal id) fun _ => .bind (modifyToken_frugal _ _) fun _ => ?_
  exact .ite (modifyWorld_frugal (fun _ => rfl) fun _ => rfl) (.pure _)

theorem resolveField_frugal (className name : String) :
    Frugal (resolveField className name) := by
  refine .bind world_frugal fun w => ?_
  split
  · exact .pure _
  · refine .bind (modifyWorld_frugal (fun _ => rfl) fun _ => rfl) fun _ => ?_
    refine .bind library_frugal fun lib => ?_
    split
    · exact .pure _
    · refine .bind (report_frugal _) fun _ => .bind ?_ fun _ => .pure _
      exact modifyWorld_frugal (fun _ => rfl) fun _ => rfl

theorem setField_frugal (h : Handle) (f : FieldDecl) (v : Value) :
    Frugal (setField h f v) :=
  heap_frugal.bind fun _ => .bind .ofExcept fun _ =>
    modifyWorld_frugal (fun _ => rfl) fun _ => rfl

/-! ### Activations -/

theorem entryMonitor_frugal (h : Handle) : Frugal (entryMonitor h) :=
  heap_frugal.bind fun _ => .bind .ofExcept fun _ => .pure _

theorem enterMonitor_frugal (k : MonitorKey) : Frugal (enterMonitor k) := by
  refine .bind get_frugal fun m => ?_
  split
  · exact modifyWorld_frugal (fun _ => rfl) fun _ => rfl
  · exact .blocked

theorem exitMonitor_frugal (k : MonitorKey) : Frugal (exitMonitor k) :=
  .bind get_frugal fun _ => .bind (modifyWorld_frugal (fun _ => rfl) fun _ => rfl) fun _ => .pure _

theorem pushMonitor_frugal (k : MonitorKey) : Frugal (pushMonitor k) :=
  frame_frugal.bind fun _ => (enterMonitor_frugal k).bind fun _ => moveFrame_frugal

theorem popMonitor_frugal (k : MonitorKey) : Frugal (popMonitor k) :=
  moveFrame_frugal.bind fun _ => exitMonitor_frugal k

theorem countStray_frugal (k : MonitorKey) : Frugal (countStray k) := modifyThread_frugal _

theorem monitorOf_frugal (v : Value) : Frugal (monitorOf v) := by
  unfold monitorOf
  split
  · exact .pure _
  · exact (entryMonitor_frugal _).bind fun _ => .pure _
  · exact (entryMonitor_frugal _).bind fun _ => .pure _
  · exact .pure _
  · exact .fail rfl

theorem pushFrame_frugal (cls : LoadedClass) (m : MethodDecl) :
    Frugal (pushFrame cls m) := by
  refine thread_frugal.bind fun t => .ite (.fail rfl) ?_
  refine (modifyThread_frugal _).bind fun _ => .bind .ofExcept fun _ => ?_
  exact (report_frugal _).bind fun _ => modifyThread_frugal _

theorem popFrame_frugal : Frugal popFrame := by
  refine frame_frugal.bind fun f => (modifyThread_frugal _).bind fun _ => ?_
  refine .bind (.forM_list (fun k => (exitMonitor_frugal k).discard) _) fun _ => ?_
  refine (modifyThread_frugal _).bind fun _ => thread_frugal.bind fun _ => ?_
  exact (report_frugal _).bind fun _ => .pure _

theorem leaveDepth_frugal : Frugal leaveDepth := onThread_frugal

theorem rewind_frugal (pc : Nat) : Frugal (rewind pc) :=
  thread_frugal.bind fun _ => (modifyThread_frugal _).bind fun _ => .pure _

theorem catchException_frugal (h : Handler) (exception : Handle) :
    Frugal (catchException h exception) := by
  refine (rewind_frugal _).bind fun _ => .bind moveFrame_frugal fun _ => ?_
  exact (push_frugal _).bind fun _ => takePending_frugal.bind fun _ => .pure _

/-! ### Operands and branches -/

theorem loadLocal_frugal (kind : LocalKind) (slot : Nat) : Frugal (loadLocal kind slot) :=
  frame_frugal.bind fun _ => .bind .ofExcept fun _ => .bind .ofExcept fun _ => push_frugal _

theorem storeLocal_frugal (kind : LocalKind) (slot : Nat) :
    Frugal (storeLocal kind slot) :=
  pop_frugal.bind fun _ => .bind .ofExcept fun _ => moveFrame_frugal

theorem incrementLocal_frugal (slot : Nat) (delta : Int32) :
    Frugal (incrementLocal slot delta) :=
  frame_frugal.bind fun _ => .bind .ofExcept fun _ => .bind .ofExcept fun _ => moveFrame_frugal

theorem takeWords_frugal : ∀ (n : Nat) (taken : List Operand), Frugal (takeWords n taken)
  | 0, _ => .pure _
  | 1, _ => popOperand_frugal.bind fun _ => .pure _
  | n + 2, _ => popOperand_frugal.bind fun _ =>
      .ite (takeWords_frugal n _) (takeWords_frugal (n + 1) _)

theorem popWords_frugal (words : Nat) : Frugal (popWords words) :=
  (takeWords_frugal words []).bind fun _ => .ite (.pure _) (.fail rfl)

theorem pushBack_frugal (os : List Operand) : Frugal (pushBack os) :=
  .forM_list pushOperand_frugal os

theorem pushCopies_frugal (os : List Operand) : Frugal (pushCopies os) := by
  unfold pushCopies
  exact .forM_list (fun o => push_frugal o.value) os

theorem duplicate_frugal (words : Nat) : Frugal (duplicate words) :=
  (popWords_frugal _).bind fun _ => (pushCopies_frugal _).bind fun _ => pushBack_frugal _

theorem duplicateUnder_frugal (words under : Nat) : Frugal (duplicateUnder words under) :=
  (popWords_frugal _).bind fun _ => (popWords_frugal _).bind fun _ =>
    (pushCopies_frugal _).bind fun _ => (pushBack_frugal _).bind fun _ => pushBack_frugal _

theorem swap_frugal : Frugal swap :=
  (popWords_frugal _).bind fun _ => (popWords_frugal _).bind fun _ =>
    (pushBack_frugal _).bind fun _ => pushBack_frugal _

theorem branch_frugal (offset : Int32) : Frugal (branch offset) := moveFrame_frugal

theorem branchIf_frugal {condition : Exec Bool} (h : Frugal condition) :
    Frugal (branchIf condition) :=
  readI16_frugal.bind fun _ => h.bind fun _ => .ite (branch_frugal _) (.pure _)

theorem popCompare_frugal (c : Condition) : Frugal (popCompare c) :=
  popInt_frugal.bind fun _ => popInt_frugal.bind fun _ => .pure _

theorem popSame_frugal : Frugal popSame :=
  pop_frugal.bind fun _ => .bind .ofExcept fun _ => pop_frugal.bind fun _ =>
    .bind .ofExcept fun _ => .pure _

theorem popNull_frugal : Frugal popNull :=
  pop_frugal.bind fun _ => .bind .ofExcept fun _ => .pure _

theorem jumpSubroutine_frugal (offset : Int32) : Frugal (jumpSubroutine offset) :=
  frame_frugal.bind fun _ => (branch_frugal _).bind fun _ =>
    moveFrame_frugal.bind fun _ => push_frugal _

theorem returnSubroutine_frugal (slot : Nat) : Frugal (returnSubroutine slot) :=
  frame_frugal.bind fun _ => .bind .ofExcept fun _ => .bind .ofExcept fun _ => moveFrame_frugal

theorem skipPadding_frugal : Frugal skipPadding := moveFrame_frugal

theorem tableSwitch_frugal : Frugal tableSwitch := by
  refine popInt_frugal.bind fun key => skipPadding_frugal.bind fun _ => ?_
  refine readI32_frugal.bind fun _ => readI32_frugal.bind fun _ => readI32_frugal.bind fun _ => ?_
  refine .ite (.fail rfl) (.ite (branch_frugal _) ?_)
  exact .bind moveFrame_frugal fun _ => readI32_frugal.bind fun _ => branch_frugal _

theorem searchPairs_frugal (key otherwise : Int32) : ∀ n, Frugal (searchPairs key otherwise n)
  | 0 => branch_frugal _
  | n + 1 => readI32_frugal.bind fun _ => readI32_frugal.bind fun _ =>
      .ite (branch_frugal _) (searchPairs_frugal key otherwise n)

theorem lookupSwitch_frugal : Frugal lookupSwitch :=
  popInt_frugal.bind fun _ => skipPadding_frugal.bind fun _ => readI32_frugal.bind fun _ =>
    readI32_frugal.bind fun _ => .ite (.fail rfl) (searchPairs_frugal _ _ _)

/-! ### Arithmetic -/

theorem negate_frugal (kind : NumberKind) : Frugal (negate kind) := by
  cases kind with
  | int => exact popInt_frugal.bind fun _ => push_frugal _
  | long => exact popLong_frugal.bind fun _ => push_frugal _
  | float => exact popFloat_frugal.bind fun _ => push_frugal _
  | double => exact popDouble_frugal.bind fun _ => push_frugal _

theorem shift_frugal (kind : WordKind) (op : ShiftOp) : Frugal (shift kind op) := by
  refine popInt_frugal.bind fun _ => ?_
  cases kind with
  | int => exact popInt_frugal.bind fun _ => push_frugal _
  | long => exact popLong_frugal.bind fun _ => push_frugal _

theorem bitwise_frugal (kind : WordKind) (op : BitOp) : Frugal (bitwise kind op) := by
  cases kind with
  | int => exact popInt_frugal.bind fun _ => popInt_frugal.bind fun _ => push_frugal _
  | long => exact popLong_frugal.bind fun _ => popLong_frugal.bind fun _ => push_frugal _

theorem convert_frugal (source target : NumberKind) : Frugal (convert source target) :=
  pop_frugal.bind fun _ => .bind .ofExcept fun _ => push_frugal _

theorem narrow_frugal (target : NarrowKind) : Frugal (narrow target) := by
  refine popInt_frugal.bind fun _ => ?_
  cases target <;> exact push_frugal _

theorem compareLongs_frugal : Frugal compareLongs :=
  popLong_frugal.bind fun _ => popLong_frugal.bind fun _ => push_frugal _

theorem compareFloats_frugal (unordered : Int32) : Frugal (compareFloats unordered) :=
  popFloat_frugal.bind fun _ => popFloat_frugal.bind fun _ => push_frugal _

theorem compareDoubles_frugal (unordered : Int32) : Frugal (compareDoubles unordered) :=
  popDouble_frugal.bind fun _ => popDouble_frugal.bind fun _ => push_frugal _

/-! ### References of the constant pool -/

theorem loadLongConstant_frugal (index : UInt16) : Frugal (loadLongConstant index) := by
  refine frame_frugal.bind fun _ => .bind .ofExcept fun constant => ?_
  split
  · exact push_frugal _
  · exact push_frugal _
  · exact .fail rfl

theorem readClassName_frugal : Frugal readClassName := by
  refine readU16_frugal.bind fun _ => frame_frugal.bind fun _ => .bind .ofExcept fun constant => ?_
  split
  · exact .pure _
  · exact .fail rfl

theorem readFieldRef_frugal : Frugal readFieldRef := by
  refine readU16_frugal.bind fun _ => frame_frugal.bind fun _ => .bind .ofExcept fun constant => ?_
  split
  · exact .pure _
  · exact .fail rfl

theorem readMethodRef_frugal : Frugal readMethodRef := by
  refine readU16_frugal.bind fun _ => frame_frugal.bind fun _ => .bind .ofExcept fun constant => ?_
  split
  · exact .pure _
  · exact .pure _
  · exact .fail rfl

/-! ### Types and elements -/

theorem runtimeTypeName_frugal (v : Value) : Frugal (runtimeTypeName v) := by
  unfold runtimeTypeName
  split
  · exact heap_frugal.bind fun _ => .bind .ofExcept fun _ => .pure _
  · exact heap_frugal.bind fun _ => .ofExcept
  · exact .pure _
  · exact .fail rfl

theorem misfit_frugal (descriptor : String) (v : Value) : Frugal (misfit descriptor v) :=
  .ite (.pure _) ((runtimeTypeName_frugal v).bind fun _ => library_frugal.bind fun _ =>
    .ite (.pure _) (.pure _))

theorem fitting_frugal (descriptor : String) : ∀ (vs : List Value) (n : Nat),
    Frugal (fitting descriptor vs n)
  | [], _ => .pure _
  | v :: vs, n => by
      refine (misfit_frugal descriptor v).bind fun refused => ?_
      split
      · exact .pure _
      · exact fitting_frugal descriptor vs (n + 1)

/-! ### Calls and returns -/

theorem declaringClass_frugal (m : MethodDecl) : Frugal (declaringClass m) :=
  findClass_frugal m.className

theorem methodMonitor_frugal (cls : LoadedClass) (m : MethodDecl) :
    Frugal (methodMonitor cls m) := by
  refine .ite (.pure _) ((peek_frugal _).bind fun v => ?_)
  split
  · exact entryMonitor_frugal _
  · exact entryMonitor_frugal _
  · exact .pure _
  · exact .fail rfl

theorem callMonitor_frugal (cls : LoadedClass) (m : MethodDecl) :
    Frugal (callMonitor cls m) := .ite (methodMonitor_frugal cls m).map (.pure _)

theorem enterFrame_frugal (cls : LoadedClass) (m : MethodDecl)
    (monitor : Option MonitorKey) : Frugal (enterFrame cls m monitor) :=
  (pushFrame_frugal cls m).bind fun _ => .bind (.forM_option pushMonitor_frugal monitor) fun _ =>
    .discard onThread_frugal

theorem beginInitialisation_frugal (id : Nat) : Frugal (beginInitialisation id) := by
  refine thread_frugal.bind fun _ => (initState_frugal id).bind fun i => ?_
  split
  · exact (setInitState_frugal _ _).bind fun _ => .pure _
  · exact .ite (.pure _) .blocked
  · exact .pure _
  · exact .pure _

theorem threadGroup_frugal : Frugal threadGroup := by
  refine thread_frugal.bind fun t => ?_
  split
  · exact .pure _
  · refine heap_frugal.bind fun _ => .bind .ofExcept fun group => ?_
    split <;> exact .pure _

theorem receiver_frugal (ref : MemberRef) : Frugal (receiver ref) :=
  .bind .ofExcept fun _ => peek_frugal _

theorem leave_frugal (v : Option Value) : Frugal (leave v) :=
  popFrame_frugal.discard.bind fun _ => .bind (.forM_option hand_frugal v) fun _ =>
    leaveDepth_frugal.bind fun _ => .ite (.pure _) (.pure _)

theorem returnValue_frugal : Frugal returnValue :=
  frame_frugal.bind fun _ => pop_frugal.bind fun _ => .bind .ofExcept fun _ => leave_frugal _

theorem returnVoid_frugal : Frugal returnVoid :=
  frame_frugal.bind fun _ => (leave_frugal none).bind fun _ =>
    .ite ((modifyThread_frugal _).bind fun _ => .pure _) (.pure _)

theorem prepare_frugal (m : MethodDecl) (args : List Value) : Frugal (prepare m args) :=
  thread_frugal.bind fun _ => (report_frugal _).bind fun _ =>
    .bind (.forM_list hand_frugal args) fun _ => modifyThread_frugal _

theorem conclude_frugal (m : MethodDecl) (base : Nat) (outcome : RunOutcome) :
    Frugal (conclude m base outcome) := by
  cases outcome with
  | completed => exact .ite (.pure _) (pop_frugal.bind fun _ => .pure _)
  | halted => exact .pure _
  | exceptionPending | uncaught => exact (modifyThread_frugal _).bind fun _ => .pure _

theorem reportUncaught_frugal : Frugal reportUncaught := by
  refine pop_frugal.bind fun _ => .bind .ofExcept fun throwable => ?_
  refine pop_frugal.discard.bind fun _ => pop_frugal.discard.bind fun _ => ?_
  split
  · exact heap_frugal.bind fun _ => .bind .ofExcept fun _ => report_frugal _
  · exact report_frugal _

/-! ### Between two instructions -/

theorem fetch_frugal : Frugal fetch := by
  refine .bind moveFrame_frugal fun _ => readU8_frugal.bind fun byte => read_frugal.bind fun s => ?_
  exact .ite (frame_frugal.bind fun _ => (report_frugal _).bind fun _ => .pure _) (.pure _)

theorem checkpoint_frugal : Frugal checkpoint := by
  refine thread_frugal.bind fun t => (pauseToken_frugal _).bind fun token => ?_
  split
  · exact .pure _
  next held _ =>
    have ending : Frugal (do
        if (← pauseToken t.token).phase = held then report .haltedWhilePaused
        else report .threadResumed
        return true) := by
      refine (pauseToken_frugal _).bind fun _ => ?_
      exact .ite ((report_frugal _).bind fun _ => .pure _) ((report_frugal _).bind fun _ => .pure _)
    refine (modifyToken_frugal _ _).bind fun _ => (report_frugal _).bind fun _ => ?_
    refine isHalted_frugal.bind fun _ => .ite ending (.ite ?_ ?_)
    · exact Frugal.blocked.bind fun _ => (settleToken_frugal _).bind fun _ => ending
    · exact (settleToken_frugal _).bind fun _ => ending

theorem mustCollect_frugal : Frugal mustCollect :=
  .bind (modifyWorld_frugal (fun _ => rfl) fun _ => rfl) fun _ => world_frugal.bind fun _ =>
    .ite (halt_frugal.bind fun _ => .pure _) (.pure _)

theorem safepoint_frugal : Frugal safepoint := by
  have ending (due : Bool) (e : Event) : Frugal (if due then do
      report e
      modifyWorld fun w => { w with collector := w.collector.collect } else pure ()) :=
    .ite ((report_frugal _).bind fun _ => modifyWorld_frugal (fun _ => rfl) fun _ => rfl) (.pure _)
  refine isHalted_frugal.bind fun _ => (modifyThread_frugal _).bind fun _ => ?_
  refine thread_frugal.bind fun t => read_frugal.bind fun s => ?_
  refine .ite (.bind (.pure _) fun due => ending due _) ?_
  exact mustCollect_frugal.bind fun due => ending due _

theorem stopsHere_frugal : Frugal stopsHere :=
  isHalted_frugal.bind fun _ => .ite (.pure _)
    (checkpoint_frugal.bind fun _ => .ite isHalted_frugal (.pure _))

end Exec

end JavaMachine
