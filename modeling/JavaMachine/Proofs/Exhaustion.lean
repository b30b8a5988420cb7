import JavaMachine.Proofs.Balance
import JavaMachine.Proofs.Refusals

/-!
# Memory that runs out

A guest that asks for more memory than there is gets an exception; the host does not see a fault.

Every instruction answers a refused allocation, and so do the natives that the machine brings along.
An instruction that brings a class into use also calls its initialiser, and what is refused there is
a matter of the instructions of that call.  It only has to be known that the call does not fail for
lack of memory itself.  It does not, because its instructions answer: the budget of the machine
carries this induction (`Engine.reentry_solvent`).
-/

namespace JavaMachine

namespace Exec

variable {host : Host}

/-! ## Instructions that call no method -/

theorem resolveClass_answers (name : String) : Answers (resolveClass name) := by
  refine library_frugal.bind_answers fun lib => ?_
  cases lib.find? name with
  | some c => exact (Frugal.pure _).answers
  | none => exact (raise_answers _ _).bind_nothing

theorem arith_answers (kind : NumberKind) (op : ArithOp) : Answers (arith kind op) := by
  cases kind with
  | int =>
      refine popInt_frugal.bind_answers fun b => popInt_frugal.bind_answers fun a => ?_
      cases intResult? op a b with
      | some r => exact (push_frugal _).answers
      | none => exact raise_answers _ _
  | long =>
      refine popLong_frugal.bind_answers fun b => popLong_frugal.bind_answers fun a => ?_
      cases longResult? op a b with
      | some r => exact (push_frugal _).answers
      | none => exact raise_answers _ _
  | float =>
      exact (popFloat_frugal.bind fun _ => popFloat_frugal.bind fun _ => push_frugal _).answers
  | double =>
      exact (popDouble_frugal.bind fun _ => popDouble_frugal.bind fun _ => push_frugal _).answers

theorem intern_answers (text : String) : Answers (intern text) := by
  refine world_frugal.bind_answers fun w => ?_
  cases w.interned.lookup text with
  | some h => exact (Frugal.pure _).answers
  | none =>
      refine (orOutOfMemory_answers (newString_asks text)).bind_option rfl fun h => ?_
      refine Frugal.answers (.bind ?_ fun _ => .pure _)
      exact modifyWorld_frugal (fun _ => rfl) fun _ => rfl

theorem loadConstant_answers (index : UInt16) : Answers (loadConstant index) := by
  refine frame_frugal.bind_answers fun f => Frugal.ofExcept.bind_answers fun constant => ?_
  split
  · exact (push_frugal _).answers
  · exact (push_frugal _).answers
  next text => exact (intern_answers text).bind_option rfl fun _ => (push_frugal _).answers
  next name => exact (resolveClass_answers name).bind_option rfl fun _ => (push_frugal _).answers
  · exact Frugal.answers (.fail rfl)

theorem resolveFieldRef_answers (ref : MemberRef) :
    Answers (resolveFieldRef ref) := by
  refine (resolveClass_answers _).bind_option rfl fun _ => ?_
  refine (resolveField_frugal _ _).bind_answers fun f => ?_
  cases f with
  | some f => exact (Frugal.pure _).answers
  | none => exact (raise_answers _ _).bind_nothing

theorem readField_answers (static : Bool) : Answers (readField static) := by
  refine readFieldRef_frugal.bind_answers fun ref => ?_
  refine (resolveFieldRef_answers ref).bind_option rfl fun f => ?_
  exact .ite (Frugal.pure _).answers (raise_answers _ _).bind_nothing

theorem getInstanceField_answers : Answers getInstanceField := by
  refine (readField_answers false).bind_option rfl fun f => pop_frugal.bind_answers fun v => ?_
  split
  · exact raise_answers _ _
  · exact (heap_frugal.bind fun _ => .bind .ofExcept fun _ => push_frugal _).answers
  · exact Frugal.answers (.fail rfl)

theorem putInstanceField_answers : Answers putInstanceField := by
  refine (readField_answers false).bind_option rfl fun f => pop_frugal.bind_answers fun v => ?_
  refine Frugal.ofExcept.bind_answers fun v => pop_frugal.bind_answers fun target => ?_
  split
  · exact raise_answers _ _
  · exact (setField_frugal _ _ _).answers
  · exact Frugal.answers (.fail rfl)

theorem pushNewArray_answers (kind : ElementKind) (descriptor : String) (count : Int32) :
    Answers (pushNewArray kind descriptor count) :=
  .ite (raise_answers _ _) ((orOutOfMemory_answers (allocate_asks _)).bind_option rfl fun _ =>
    (push_frugal _).answers)

theorem newArray_answers : Answers newArray := by
  refine readU8_frugal.bind_answers fun code => ?_
  split
  · exact Frugal.answers (.fail rfl)
  · exact popInt_frugal.bind_answers fun _ => pushNewArray_answers _ _ _

theorem newReferenceArray_answers : Answers newReferenceArray := by
  refine readClassName_frugal.bind_answers fun name => popInt_frugal.bind_answers fun count => ?_
  exact .ite (pushNewArray_answers _ _ _)
    ((resolveClass_answers name).bind_option rfl fun _ => pushNewArray_answers _ _ _)

theorem newMultiArray_answers : Answers newMultiArray := by
  refine readClassName_frugal.bind_answers fun descriptor => ?_
  refine readU8_frugal.bind_answers fun byte => .ite (Frugal.answers (.fail rfl)) ?_
  refine (popInt_frugal.collectTimes _ _).bind_answers fun counts => ?_
  dsimp only
  split
  · exact raise_answers _ _
  · exact (orOutOfMemory_answers (multiArray_asks _ _)).bind_option rfl fun _ =>
      (push_frugal _).answers

theorem pushArrayLength_answers : Answers pushArrayLength := by
  refine pop_frugal.bind_answers fun v => ?_
  split
  · exact raise_answers _ _
  · exact (heap_frugal.bind fun _ => .bind .ofExcept fun _ => push_frugal _).answers
  · exact Frugal.answers (.fail rfl)

theorem popArrayAt_answers (index : Int32) : Answers (popArrayAt index) := by
  refine pop_frugal.bind_answers fun v => ?_
  split
  · exact (raise_answers _ _).bind_nothing
  · refine heap_frugal.bind_answers fun _ => Frugal.ofExcept.bind_answers fun length => ?_
    split
    · exact (Frugal.pure _).answers
    · exact (raise_answers _ _).bind_nothing
  · exact Frugal.answers (.fail rfl)

theorem arrayLoad_answers (kind : ElementKind) : Answers (arrayLoad kind) := by
  refine popInt_frugal.bind_answers fun index => ?_
  refine (popArrayAt_answers index).bind_option rfl fun h => ?_
  refine heap_frugal.bind_answers fun _ => Frugal.ofExcept.bind_answers fun v => ?_
  cases v with
  | none => exact Frugal.answers (.fail rfl)
  | some v => exact (Frugal.ofExcept.bind fun _ => push_frugal _).answers

theorem storeFitting_answers (kind : ElementKind) (h : Handle) (index : Int32) (descriptor : String)
    (element : Value) (refused : Option String) :
    Answers (storeFitting kind h index descriptor element refused) := by
  unfold storeFitting
  split
  · exact raise_answers _ _
  · refine heap_frugal.bind_answers fun _ => Frugal.ofExcept.bind_answers fun a => ?_
    refine heap_frugal.bind_answers fun _ => Frugal.ofExcept.bind_answers fun done => ?_
    exact Frugal.answers (modifyWorld_frugal (fun _ => rfl) fun _ => rfl)

theorem arrayStore_answers (kind : ElementKind) : Answers (arrayStore kind) := by
  refine pop_frugal.bind_answers fun v => popInt_frugal.bind_answers fun index => ?_
  refine (popArrayAt_answers index).bind_option rfl fun h => ?_
  refine heap_frugal.bind_answers fun _ => Frugal.ofExcept.bind_answers fun descriptor => ?_
  refine Frugal.ofExcept.bind_answers fun element => ?_
  exact .ite ((misfit_frugal _ _).bind_answers fun _ => storeFitting_answers _ _ _ _ _ _)
    ((Frugal.pure _).bind_answers fun _ => storeFitting_answers _ _ _ _ _ _)

theorem readTypeName_answers : Answers readTypeName := by
  refine readClassName_frugal.bind_answers fun name => .ite (Frugal.pure _).answers ?_
  exact (resolveClass_answers name).bind_option rfl fun _ => (Frugal.pure _).answers

theorem checkCast_answers : Answers checkCast := by
  refine readTypeName_answers.bind_option rfl fun target => (peek_frugal 1).bind_answers fun v => ?_
  refine .ite (Frugal.pure _).answers ((runtimeTypeName_frugal v).bind_answers fun source => ?_)
  exact library_frugal.bind_answers fun _ => .ite (Frugal.pure _).answers (raise_answers _ _)

theorem instanceOf_answers : Answers instanceOf := by
  refine readTypeName_answers.bind_option rfl fun target => pop_frugal.bind_answers fun v => ?_
  refine .ite (push_frugal _).answers (Frugal.answers ?_)
  exact (runtimeTypeName_frugal v).bind fun _ => library_frugal.bind fun _ => push_frugal _

theorem throwReference_answers : Answers throwReference := by
  refine pop_frugal.bind_answers fun v => ?_
  split
  · exact raise_answers _ _
  · refine Frugal.answers (read_frugal.bind fun s => .ite ?_ (setPending_frugal _))
    exact heap_frugal.bind fun _ => .bind .ofExcept fun _ => (report_frugal _).bind fun _ =>
      setPending_frugal _
  · exact Frugal.answers (.fail rfl)

theorem monitorEnter_answers : Answers monitorEnter := by
  refine pop_frugal.bind_answers fun v => (monitorOf_frugal v).bind_answers fun k => ?_
  cases k with
  | some k => exact (pushMonitor_frugal k).answers
  | none => exact raise_answers _ _

theorem monitorExit_answers : Answers monitorExit := by
  refine pop_frugal.bind_answers fun v => (monitorOf_frugal v).bind_answers fun k => ?_
  cases k with
  | none => exact raise_answers _ _
  | some k =>
      refine (countStray_frugal k).bind_answers fun _ => ?_
      exact (popMonitor_frugal k).bind_answers fun _ =>
        .ite (Frugal.pure _).answers (raise_answers _ _)

/-! ## The natives that the machine brings along -/

theorem hashCode_answers : Answers hashCode := by
  refine pop_frugal.bind_answers fun v => ?_
  split
  · exact (push_frugal _).answers
  · refine Frugal.ofExcept.bind_answers fun h => ?_
    cases h with
    | some h => exact (push_frugal _).answers
    | none => exact raise_answers _ _

theorem getName_answers : Answers getName := by
  refine pop_frugal.bind_answers fun v => ?_
  split
  · exact (orOutOfMemory_answers (newString_asks _)).bind_option rfl fun _ =>
      (push_frugal _).answers
  · exact raise_answers _ _
  · exact Frugal.answers (.fail rfl)

theorem placeFitting_answers (dest : Handle) (target : ArrayEntry) (place : Nat)
    (moved : List Value) (fit : Nat × Option String) :
    Answers (placeFitting dest target place moved fit) := by
  refine Frugal.bind_answers ?_ fun _ => ?_
  · exact modifyWorld_frugal (fun _ => rfl) fun _ => rfl
  · split
    · exact raise_answers _ _
    · exact (Frugal.pure _).answers

theorem copyElements_answers (src dest : Handle) (srcPlace destPlace length : Int32) :
    Answers (copyElements src dest srcPlace destPlace length) := by
  refine heap_frugal.bind_answers fun _ => Frugal.ofExcept.bind_answers fun a => ?_
  refine heap_frugal.bind_answers fun _ => Frugal.ofExcept.bind_answers fun b => ?_
  refine .ite (raise_answers _ _) (.ite (raise_answers _ _) ?_)
  refine library_frugal.bind_answers fun _ => ?_
  exact .ite ((fitting_frugal _ _ _).bind_answers fun _ => placeFitting_answers _ _ _ _ _)
    ((Frugal.pure _).bind_answers fun _ => placeFitting_answers _ _ _ _ _)

theorem arrayCopy_answers : Answers arrayCopy := by
  refine popInt_frugal.bind_answers fun length => popInt_frugal.bind_answers fun destPlace => ?_
  refine pop_frugal.bind_answers fun _ => Frugal.ofExcept.bind_answers fun dest => ?_
  refine popInt_frugal.bind_answers fun srcPlace => ?_
  refine pop_frugal.bind_answers fun _ => Frugal.ofExcept.bind_answers fun src => ?_
  have copying (src dest : Handle) (both : Bool) : Answers (if both then
      copyElements src dest srcPlace destPlace length
      else raise Throwable.arrayStoreException none) :=
    .ite (copyElements_answers _ _ _ _ _) (raise_answers _ _)
  split
  · refine heap_frugal.bind_answers fun _ => Frugal.ofExcept.bind_answers fun fromArray => ?_
    refine .ite (heap_frugal.bind_answers fun _ => Frugal.ofExcept.bind_answers fun _ => ?_) ?_
    · exact copying _ _ _
    · exact copying _ _ _
  · exact raise_answers _ _

end Exec

/-- They answer every refusal. -/
theorem coreNatives_answer (r : Reentry) {signature : String} {native : NativeFn}
    (found : coreNatives.find? signature = some native) : Exec.Answers (native r) := by
  have listed := Natives.mem_of_find? found
  simp only [coreNatives, List.mem_cons, Prod.mk.injEq, List.not_mem_nil, or_false] at listed
  obtain ⟨-, rfl⟩ | ⟨-, rfl⟩ | ⟨-, rfl⟩ | ⟨-, rfl⟩ := listed
  · exact Exec.hashCode_answers
  · exact Exec.getName_answers
  · exact Exec.arrayCopy_answers
  · exact Exec.reportUncaught_frugal.answers

/-! ## Calls -/

/-- The ways into a machine do not fail for lack of memory. -/
structure Reentry.Solvent (r : Reentry) : Prop where
  /-- A call does not. -/
  call : ∀ cls decl args, Exec.Solvent (r.call cls decl args)
  /-- A run does not. -/
  run : Exec.Solvent r.run

/-- What instructions that call methods work with does not fail for lack of memory. -/
structure Host.Solvent (host : Host) : Prop extends host.toReentry.Solvent where
  /-- The natives answer every refusal. -/
  native : ∀ {signature native}, host.natives.find? signature = some native →
    Exec.Answers (native host.toReentry)

namespace Exec

variable {host : Host}

theorem invokeNative_answers (hh : host.Solvent) (m : MethodDecl) (monitor : Option MonitorKey) :
    Answers (invokeNative host m monitor) := by
  refine (report_frugal _).bind_answers fun _ => ?_
  refine (Frugal.forM_option enterMonitor_frugal monitor).bind_answers fun _ => ?_
  split
  next native found =>
    exact Passes.answers (hh.native found) fun _ =>
      Passes.ofExcept.after (exitMonitors_tidies monitor)
  · refine Frugal.bind_answers ?_ fun _ => (report_frugal _).bind_answers fun _ => raise_answers _ _
    exact .forM_option (fun k => (exitMonitor_frugal k).discard) monitor

theorem invokeCode_answers (cls : LoadedClass) (m : MethodDecl) (monitor : Option MonitorKey) :
    Answers (invokeCode cls m monitor) := by
  refine thread_frugal.bind_answers fun t => read_frugal.bind_answers fun s => .ite ?_ ?_
  · exact (report_frugal _).bind_answers fun _ => (raise_answers _ _).bind_nothing
  · exact ((enterFrame_frugal cls m monitor).bind fun _ => .pure _).answers

theorem invoke_answers (hh : host.Solvent) (cls : LoadedClass) (m : MethodDecl) :
    Answers (invoke host cls m) := by
  refine .ite (raise_answers _ _).bind_nothing ?_
  refine (callMonitor_frugal cls m).bind_answers fun monitor => ?_
  exact .ite (invokeNative_answers hh m monitor).bind_nothing (invokeCode_answers cls m monitor)

/-- What is refused to the initialiser of a class is a matter of its own instructions. -/
theorem runInitialiser_frugal (hh : host.Solvent) (cls : LoadedClass) :
    Frugal (runInitialiser host cls) := by
  unfold runInitialiser
  split
  · exact .pure _
  next m _ =>
    refine (report_frugal _).bind fun _ => library_frugal.bind fun _ => ?_
    refine world_frugal.bind fun _ => (record_frugal _).bind fun _ => ?_
    refine (hh.call cls m []).uncounted.bind fun i => ?_
    cases i with
    | returned | threw | halted => exact .pure _

theorem ensureInitialisedWithin_answers (hh : host.Solvent) : ∀ (n : Nat) (cls : LoadedClass),
    Answers (ensureInitialisedWithin host n cls)
  | 0, _ => Frugal.exhausted.answers
  | n + 1, cls => by
      refine (beginInitialisation_frugal cls.id).bind_answers fun action => ?_
      cases action with
      | ready => exact (Frugal.pure _).answers
      | failed => exact (raise_answers _ _).bind_nothing
      | run =>
          refine Passes.answers ?_ fun r => ?_
          · refine library_frugal.bind_answers fun lib => ?_
            split
            next s _ =>
              exact (ensureInitialisedWithin_answers hh n s).bind_bool
                (runInitialiser_frugal hh cls).answers
            · exact (runInitialiser_frugal hh cls).answers
          · exact .after (.after .ofExcept (report_tidies _)) (finishInitialisation_tidies _ _)

theorem ensureInitialised_answers (hh : host.Solvent) (cls : LoadedClass) :
    Answers (ensureInitialised host cls) :=
  library_frugal.bind_answers fun _ => ensureInitialisedWithin_answers hh _ cls

/-! ## Instructions that call methods or use classes -/

theorem readStaticField_answers (hh : host.Solvent) : Answers (readStaticField host) := by
  refine (readField_answers true).bind_option rfl fun f => ?_
  refine (findClass_frugal _).bind_answers fun cls => ?_
  exact (ensureInitialised_answers hh cls).bind_bool (Frugal.pure _).answers

theorem getStaticField_answers (hh : host.Solvent) : Answers (getStaticField host) := by
  refine (readStaticField_answers hh).bind_option rfl fun f => Frugal.answers ?_
  exact (useClass_frugal _).bind fun _ => (getStatic_frugal f).bind fun _ => push_frugal _

theorem putStaticField_answers (hh : host.Solvent) : Answers (putStaticField host) := by
  refine (readStaticField_answers hh).bind_option rfl fun f => Frugal.answers ?_
  refine pop_frugal.bind fun _ => .bind .ofExcept fun v => ?_
  exact (useClass_frugal _).bind fun _ => setStatic_frugal f v

theorem newObject_answers (hh : host.Solvent) : Answers (newObject host) := by
  refine readClassName_frugal.bind_answers fun name => ?_
  refine (resolveClass_answers name).bind_option rfl fun cls => .ite (raise_answers _ _) ?_
  refine (ensureInitialised_answers hh cls).bind_bool ?_
  refine (useClass_frugal _).bind_answers fun _ => ?_
  exact (orOutOfMemory_answers (newInstance_asks cls)).bind_option rfl fun _ =>
    (push_frugal _).answers

theorem resolveMethod_answers (ref : MemberRef) : Answers (resolveMethod ref) := by
  refine library_frugal.bind_answers fun lib => ?_
  split
  · exact (Frugal.pure _).answers
  · exact (raise_answers _ _).bind_nothing

theorem invokeDeclared_answers (hh : host.Solvent) (m : MethodDecl) :
    Answers (invokeDeclared host m) :=
  (declaringClass_frugal m).bind_answers fun cls => (invoke_answers hh cls m).discard

theorem invokeStatic_answers (hh : host.Solvent) : Answers (invokeStatic host) := by
  refine readMethodRef_frugal.bind_answers fun ref => ?_
  refine (resolveClass_answers _).bind_option rfl fun _ => ?_
  refine (resolveMethod_answers ref).bind_option rfl fun m => .ite (raise_answers _ _) ?_
  refine (declaringClass_frugal m).bind_answers fun cls => ?_
  refine (ensureInitialised_answers hh cls).bind_bool ?_
  exact (useClass_frugal _).bind_answers fun _ => (invoke_answers hh cls m).discard

theorem invokeSpecial_answers (hh : host.Solvent) : Answers (invokeSpecial host) := by
  refine readMethodRef_frugal.bind_answers fun ref => ?_
  refine (resolveMethod_answers ref).bind_option rfl fun resolved => .ite (raise_answers _ _) ?_
  refine frame_frugal.bind_answers fun f => library_frugal.bind_answers fun lib => ?_
  split
  · exact raise_answers _ _
  next m _ =>
    exact (peek_frugal _).bind_answers fun _ =>
      .ite (raise_answers _ _) (invokeDeclared_answers hh m)

theorem receiverClass_answers (v : Value) : Answers (receiverClass v) := by
  unfold receiverClass
  split
  · exact (raise_answers _ _).bind_nothing
  · exact (heap_frugal.bind fun _ => .bind .ofExcept fun _ => .pure _).answers
  · exact resolveClass_answers _
  · exact Frugal.answers (.fail rfl)

theorem dispatch_answers (hh : host.Solvent) (cls : LoadedClass) (ref : MemberRef) :
    Answers (dispatch host cls ref) := by
  refine library_frugal.bind_answers fun lib => ?_
  split
  · exact invokeDeclared_answers hh _
  · exact raise_answers _ _

theorem invokeOnArray_answers (h : Handle) (ref : MemberRef) : Answers (invokeOnArray h ref) := by
  refine .ite (pop_frugal.discard.bind_answers fun _ => ?_) (Frugal.answers (.fail rfl))
  exact (orOutOfMemory_answers (allocate_asks _)).bind_option rfl fun _ => (push_frugal _).answers

theorem invokeVirtual_answers (hh : host.Solvent) : Answers (invokeVirtual host) := by
  refine readMethodRef_frugal.bind_answers fun ref => (receiver_frugal ref).bind_answers fun v => ?_
  split
  · exact invokeOnArray_answers _ _
  · refine (receiverClass_answers v).bind_option rfl fun cls => ?_
    refine (resolveMethod_answers ref).bind_option rfl fun resolved => .ite (raise_answers _ _) ?_
    exact .ite (invokeDeclared_answers hh resolved) (dispatch_answers hh cls ref)

theorem invokeInterface_answers (hh : host.Solvent) : Answers (invokeInterface host) := by
  refine readMethodRef_frugal.bind_answers fun ref => ?_
  refine readU8_frugal.discard.bind_answers fun _ => readU8_frugal.discard.bind_answers fun _ => ?_
  refine (receiver_frugal ref).bind_answers fun v => ?_
  split
  · exact Frugal.answers (.fail rfl)
  · refine (receiverClass_answers v).bind_option rfl fun cls => ?_
    exact library_frugal.bind_answers fun _ =>
      .ite (dispatch_answers hh cls ref) (raise_answers _ _)

/-! ## All instructions -/

theorem readSlot_frugal : Frugal readSlot := readU8_frugal.bind fun _ => .pure _

theorem performWide_frugal : Frugal performWide := by
  refine readU8_frugal.bind fun byte => readU16_frugal.bind fun slot => ?_
  dsimp only
  split
  · exact loadLocal_frugal _ _
  · exact storeLocal_frugal _ _
  · exact returnSubroutine_frugal _
  · exact readI16_frugal.bind fun _ => incrementLocal_frugal _ _
  · exact frame_frugal.bind fun _ => .fail rfl

theorem performPlain_answers (hh : host.Solvent) (op : Opcode) :
    Answers (performPlain host op) := by
  cases op with
  | nop => exact (Frugal.pure _).answers
  | push v => exact (push_frugal v).answers
  | pushByte => exact (readI8_frugal.bind fun _ => push_frugal _).answers
  | pushShort => exact (readI16_frugal.bind fun _ => push_frugal _).answers
  | loadConstant => exact readU8_frugal.bind_answers fun _ => loadConstant_answers _
  | loadConstantWide => exact readU16_frugal.bind_answers fun _ => loadConstant_answers _
  | loadLongConstant => exact (readU16_frugal.bind fun _ => loadLongConstant_frugal _).answers
  | load kind => exact (readSlot_frugal.bind fun _ => loadLocal_frugal kind _).answers
  | loadAt kind slot => exact (loadLocal_frugal kind slot).answers
  | store kind => exact (readSlot_frugal.bind fun _ => storeLocal_frugal kind _).answers
  | storeAt kind slot => exact (storeLocal_frugal kind slot).answers
  | arrayLoad kind => exact arrayLoad_answers kind
  | arrayStore kind => exact arrayStore_answers kind
  | drop words => exact (popWords_frugal words).discard.answers
  | dup words => exact (duplicate_frugal words).answers
  | dupUnder words under => exact (duplicateUnder_frugal words under).answers
  | swap => exact swap_frugal.answers
  | arith kind op => exact arith_answers kind op
  | neg kind => exact (negate_frugal kind).answers
  | shift kind op => exact (shift_frugal kind op).answers
  | bitwise kind op => exact (bitwise_frugal kind op).answers
  | increment =>
      exact (readSlot_frugal.bind fun _ => readI8_frugal.bind fun _ =>
        incrementLocal_frugal _ _).answers
  | convert source target => exact (convert_frugal source target).answers
  | narrow target => exact (narrow_frugal target).answers
  | compareLong => exact compareLongs_frugal.answers
  | compareFloat unordered => exact (compareFloats_frugal unordered).answers
  | compareDouble unordered => exact (compareDoubles_frugal unordered).answers
  | ifZero c => exact (branchIf_frugal (popInt_frugal.bind fun _ => .pure _)).answers
  | ifCompare c => exact (branchIf_frugal (popCompare_frugal c)).answers
  | ifSame expected => exact (branchIf_frugal (popSame_frugal.bind fun _ => .pure _)).answers
  | ifNull expected => exact (branchIf_frugal (popNull_frugal.bind fun _ => .pure _)).answers
  | goto => exact (readI16_frugal.bind fun _ => branch_frugal _).answers
  | gotoWide => exact (readI32_frugal.bind fun _ => branch_frugal _).answers
  | jsr => exact (readI16_frugal.bind fun _ => jumpSubroutine_frugal _).answers
  | jsrWide => exact (readI32_frugal.bind fun _ => jumpSubroutine_frugal _).answers
  | ret => exact (readSlot_frugal.bind fun _ => returnSubroutine_frugal _).answers
  | tableSwitch => exact tableSwitch_frugal.answers
  | lookupSwitch => exact lookupSwitch_frugal.answers
  | returnValue | returnVoid => exact (Frugal.pure _).answers
  | getStatic => exact getStaticField_answers hh
  | putStatic => exact putStaticField_answers hh
  | getField => exact getInstanceField_answers
  | putField => exact putInstanceField_answers
  | invokeVirtual => exact invokeVirtual_answers hh
  | invokeSpecial => exact invokeSpecial_answers hh
  | invokeStatic => exact invokeStatic_answers hh
  | invokeInterface => exact invokeInterface_answers hh
  | newObject => exact newObject_answers hh
  | newArray => exact newArray_answers
  | newReferenceArray => exact newReferenceArray_answers
  | newMultiArray => exact newMultiArray_answers
  | arrayLength => exact pushArrayLength_answers
  | throwReference => exact throwReference_answers
  | checkCast => exact checkCast_answers
  | instanceOf => exact instanceOf_answers
  | monitorEnter => exact monitorEnter_answers
  | monitorExit => exact monitorExit_answers
  | wide => exact performWide_frugal.answers
  | unsupported | unknown => exact (frame_frugal.bind fun _ => .fail rfl).answers

/-- An instruction to which memory is refused leaves an exception pending. -/
theorem step_answers (hh : host.Solvent) : Answers (step host) := by
  refine fetch_frugal.bind_answers fun byte => ?_
  by_cases value : Opcode.ofByte byte = .returnValue
  · rw [value]
    exact returnValue_frugal.answers
  by_cases void : Opcode.ofByte byte = .returnVoid
  · rw [void]
    exact returnVoid_frugal.answers
  rw [perform_plain value void]
  exact (performPlain_answers hh _).bind_nothing

/-! ## Runs -/

theorem seekGroup_frugal (exception : Handle) : Frugal (seekGroup exception) := by
  refine heap_frugal.bind fun _ => .bind .ofExcept fun exceptionClass => ?_
  refine threadGroup_frugal.bind fun g => ?_
  split
  · exact (report_frugal _).bind fun _ => .pure _
  · refine heap_frugal.bind fun _ => .bind .ofExcept fun groupClass => ?_
    refine library_frugal.bind fun lib => ?_
    split
    · exact .fail rfl
    · exact (report_frugal _).bind fun _ => (declaringClass_frugal _).bind fun cls => .pure _

theorem dropSecond_frugal (i : Invocation) : Frugal (dropSecond i) := by
  cases i with
  | threw second =>
      refine takePending_frugal.bind fun _ => heap_frugal.bind fun _ => ?_
      exact .bind .ofExcept fun _ => report_frugal _
  | returned | halted => exact .pure _

theorem deliverUncaught_solvent (hh : host.Solvent) (exception : Handle) :
    Solvent (deliverUncaught host exception) := by
  rw [deliverUncaught_eq]
  refine takePending_frugal.bind_solvent fun _ => (seekGroup_frugal _).bind_solvent fun group => ?_
  refine Solvent.bind ?_ fun _ => (Frugal.pure _).solvent
  cases group with
  | none => exact (Frugal.pure ()).solvent
  | some group =>
      refine (record_frugal _).bind_solvent fun _ => (hh.call _ _ _).bind fun i => ?_
      exact (dropSecond_frugal i).solvent

theorem invokeAndRun_solvent (hh : host.Solvent) (cls : LoadedClass) (m : MethodDecl) :
    Solvent (invokeAndRun host cls m) := by
  refine (invoke_answers hh cls m).solvent.bind fun entered => .ite hh.run ?_
  refine thread_frugal.bind_solvent fun t => ?_
  split
  · exact (Frugal.pure _).solvent
  · exact .ite (deliverUncaught_solvent hh _) (Frugal.pure _).solvent

theorem execute_solvent (hh : host.Solvent) (cls : LoadedClass) (m : MethodDecl)
    (args : List Value) : Solvent (execute host cls m args) := by
  have calling : Solvent (do
      let base := (← thread).operandDepth
      prepare m args
      let outcome ← attempt (invokeAndRun host cls m)
      discard (onThread Thread.closeDepth)
      conclude m base (← ofExcept outcome)) := by
    refine thread_frugal.bind_solvent fun t => (prepare_frugal m args).bind_solvent fun _ => ?_
    refine (invokeAndRun_solvent hh cls m).attempt_bind fun outcome sober => Frugal.solvent ?_
    refine .bind (.discard onThread_frugal) fun _ => .bind .ofExcept fun _ => ?_
    exact conclude_frugal _ _ _
  unfold execute
  split
  · exact ((Frugal.fail rfl).bind_solvent fun _ => calling)
  · exact calling

theorem unwind_solvent (hh : host.Solvent) (exception : Handle) (exceptionClass : String)
    (level : Nat) : ∀ n, Solvent (unwind host exception exceptionClass level n)
  | 0 => Frugal.exhausted.solvent
  | n + 1 => by
      refine frame_frugal.bind_solvent fun f => library_frugal.bind_solvent fun lib => ?_
      split
      · exact ((report_frugal _).bind fun _ => (catchException_frugal _ _).bind fun _ =>
          .pure _).solvent
      · refine popFrame_frugal.discard.bind_solvent fun _ => ?_
        refine leaveDepth_frugal.bind_solvent fun _ => ?_
        refine .ite (.ite ?_ (Frugal.pure _).solvent) (unwind_solvent hh _ _ _ n)
        exact (deliverUncaught_solvent hh _).bind fun _ => (Frugal.pure _).solvent

theorem handleException_solvent (hh : host.Solvent) (exception : Handle) (level : Nat) :
    Solvent (handleException host exception level) :=
  heap_frugal.bind_solvent fun _ => Frugal.ofExcept.bind_solvent fun _ =>
    thread_frugal.bind_solvent fun _ => unwind_solvent hh _ _ _ _

theorem turn_solvent (hh : host.Solvent) (level : Nat) : Solvent (turn host level) := by
  refine stopsHere_frugal.bind_solvent fun _ => .ite (Frugal.pure _).solvent ?_
  refine safepoint_frugal.bind_solvent fun _ => (step_answers hh).solvent.bind fun flow => ?_
  refine thread_frugal.bind_solvent fun t => ?_
  split
  · exact handleException_solvent hh _ level
  · exact (Frugal.pure _).solvent

theorem loop_solvent (hh : host.Solvent) (level : Nat) : ∀ n, Solvent (loop host level n)
  | 0 => Frugal.exhausted.solvent
  | n + 1 => by
      refine (turn_solvent hh level).bind fun outcome => ?_
      cases outcome with
      | some outcome => exact (Frugal.pure _).solvent
      | none => exact loop_solvent hh level n

theorem runLoop_solvent (hh : host.Solvent) (budget : Nat) : Solvent (runLoop host budget) := by
  refine (modifyThread_frugal _).bind_solvent fun _ => thread_frugal.bind_solvent fun t => ?_
  refine (loop_solvent hh _ budget).attempt_bind fun outcome sober => Frugal.solvent ?_
  exact (modifyThread_frugal _).bind fun _ => .ofExcept

end Exec

namespace Engine

open Exec

/-- The ways into a machine with the natives that it brings along. -/
theorem reentry_solvent : ∀ n, (reentry coreNatives n).Solvent
  | 0 => ⟨fun _ _ _ => Frugal.exhausted.solvent, Frugal.exhausted.solvent⟩
  | n + 1 =>
      have hh : (host coreNatives n).Solvent := ⟨reentry_solvent n, coreNatives_answer _⟩
      ⟨fun cls m args => execute_solvent hh cls m args, runLoop_solvent hh n⟩

theorem host_solvent (n : Nat) : (host coreNatives n).Solvent :=
  ⟨reentry_solvent n, coreNatives_answer _⟩

end Engine

/-- Whenever an allocation is refused to a computation and the library has the memory error, the
computation ends with an exception pending. -/
def Exec.EndsPending {α : Type} (x : Exec α) : Prop :=
  ∀ s m, m.Equipped →
    (∀ a m', x s m = .ok a m' → m'.world.refusals ≠ m.world.refusals → m'.thread.pending.isSome) ∧
    ∀ e m', x s m = .error (.fault e) m' → m'.world.refusals = m.world.refusals

theorem Exec.Answers.endsPending {α : Type} [GivesUp α] {x : Exec α} (hx : Answers x) :
    EndsPending x := by
  refine fun s m equipped => ⟨fun a m' run refused => ?_, fun e m' failed => ?_⟩
  · exact ((hx.ok run).refusals equipped).resolve_left refused |>.2
  · exact ((hx.fault failed).1.refusals equipped).resolve_right fun refused => refused.1 trivial

namespace Sample

/-- The memory error. -/
def memoryError : LoadedClass := { cls with name := Throwable.outOfMemoryError }

/-- The exception of a division by zero. -/
def divisionError : LoadedClass := { cls with name := Throwable.arithmeticException, id := 1 }

/-- A machine with a full heap in front of a division by zero. -/
def starved : Machine where
  world :=
    { library := ⟨[divisionError, memoryError]⟩
      classStates := #[memoryError.freshState, divisionError.freshState]
      heap := { capacity := some 0 } }
  thread :=
    { id := 0, frames := [frame [0x6c, 0xb1] [] 0], depths := [1], deepest := 1
      operands := #[⟨.int 1, 0⟩, ⟨.int 0, 0⟩] }

end Sample

/-- An exhausted heap is never a fault of the host.  With the natives that the machine brings along,
no call and no run fails because the heap is full or an array is too long, whatever the library, the
capacity and the limit of the length are.  An instruction, a native and the invocation of a method
to which an allocation is refused end with an exception pending, if the library has the memory
error. -/
theorem exhaustion_answered (budget : Nat) :
    (∀ cls decl args s m capacity length m',
      Engine.call coreNatives budget cls decl args s m ≠
        .error (.fault (.outOfMemory capacity)) m' ∧
      Engine.call coreNatives budget cls decl args s m ≠
        .error (.fault (.arrayAllocation length)) m') ∧
    (∀ s m capacity length m',
      Engine.run coreNatives budget s m ≠ .error (.fault (.outOfMemory capacity)) m' ∧
      Engine.run coreNatives budget s m ≠ .error (.fault (.arrayAllocation length)) m') ∧
    Exec.EndsPending (Exec.step (Engine.host coreNatives budget)) ∧
    (∀ cls decl, Exec.EndsPending (Exec.invoke (Engine.host coreNatives budget) cls decl)) ∧
    ∀ signature native, coreNatives.find? signature = some native →
      Exec.EndsPending (native (Engine.reentry coreNatives budget)) := by
  have hh := Engine.host_solvent budget
  have sober {α : Type} {x : Exec α} (hx : x.Solvent) (s : Settings) (m : Machine)
      (capacity length : Nat) (m' : Machine) :
      x s m ≠ .error (.fault (.outOfMemory capacity)) m' ∧
      x s m ≠ .error (.fault (.arrayAllocation length)) m' :=
    ⟨fun failed => Bool.noConfusion (hx.fault failed).2,
      fun failed => Bool.noConfusion (hx.fault failed).2⟩
  refine ⟨fun cls decl args => sober (hh.call cls decl args), sober hh.run, ?_, fun cls decl => ?_,
    fun signature native found => ?_⟩
  · exact (Exec.step_answers hh).endsPending
  · exact (Exec.invoke_answers hh cls decl).endsPending
  · exact (coreNatives_answer _ found).endsPending

/-- A division by zero, for whose exception there is no memory, leaves the memory error pending. -/
theorem exhaustion_answered_division : ∃ m' : Machine,
    Exec.step (Engine.host coreNatives 1) {} Sample.starved = .ok .next m' ∧
    m'.world.refusals = 1 ∧ m'.thread.pending.isSome := by
  have run : Exec.step (Engine.host coreNatives 1) {} Sample.starved =
      .ok .next ((Exec.step (Engine.host coreNatives 1)).after {} Sample.starved) := by rfl
  have refused : ((Exec.step (Engine.host coreNatives 1)).after {}
      Sample.starved).world.refusals = 1 := by
    decide +kernel
  have pending := ((exhaustion_answered 1).2.2.1 {} Sample.starved (by decide +kernel)).1 _ _ run
    (by rw [refused]; decide)
  exact ⟨_, run, refused, pending⟩

end JavaMachine
