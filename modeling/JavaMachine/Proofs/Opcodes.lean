import JavaMachine.Proofs.Moves

/-!
# Instructions in every way

What an instruction does by itself stays within its frame.  Beyond that it calls a method, brings a
class into use, or enters or exits a monitor.  So a way to go for these few is a way to go for
every instruction: `performPlain_along` says so of all ways that admit them, whatever it is that
the steps of the ways are about.  The moves are one such way.
-/

namespace JavaMachine

/-- An opcode names a return address itself. -/
def Opcode.namesAddress : Opcode → Bool
  | .push v => v.isReturnAddress
  | _ => false

/-- No byte has such an opcode. -/
theorem Opcode.namesAddress_ofByte (byte : UInt8) : (ofByte byte).namesAddress = false := by
  have listed : ∀ row ∈ table, row.opcode.namesAddress = false := by decide +kernel
  unfold ofByte row?
  split
  · rfl
  · rfl
  · cases found : table[byte.toNat]? with
    | none => rfl
    | some row => exact listed row (List.mem_of_getElem? found)

namespace Machine

/-- Between two machines the current frame has worked by itself, and the pending exception is the
same. -/
structure WithinSamePending (m m' : Machine) : Prop extends WithinSameMonitors m m' where
  /-- The pending exception is the same. -/
  samePending : m.SamePending m'

instance : AllowsFrame WithinSamePending where
  refl m := ⟨Std.Refl.refl m, rfl⟩
  trans _ _ _ first second :=
    ⟨IsTrans.trans _ _ _ first.toWithinSameMonitors second.toWithinSameMonitors,
      second.samePending.trans first.samePending⟩
  world stirs := ⟨AllowsWorld.world stirs, rfl⟩
  operands reworked held := ⟨AllowsOperands.operands reworked held, rfl⟩
  frame current onward reworked held := ⟨AllowsFrame.frame current onward reworked held, rfl⟩

end Machine

/-- Ways that allow what an instruction does by itself in its frame. -/
structure Ways.AllowsWithin (w : Ways) : Prop where
  /-- Such work is a step. -/
  step : ∀ {s : Settings} {m m' : Machine}, m.WithinSameMonitors m' → w.step s m m'
  /-- An instruction may stop after it. -/
  stop : ∀ {s : Settings} {stop : Stop} {m m' : Machine},
    m.WithinSameMonitors m' → w.stop s stop m m'

namespace Exec

variable {α : Type} {x : Exec α} {w : Ways} {P : Machine → Prop} {d : Discipline} {host : Host}

theorem Along.inFrame (hw : w.AllowsWithin) (hx : Keeps Machine.WithinSameMonitors x) :
    Along w P x fun _ _ => True :=
  .of_keeps hx (fun _ _ _ => hw.step) (fun _ _ _ _ => hw.stop) fun _ _ _ _ _ _ => trivial

/-- Work within the frame keeps a machine ready whenever its answer says so. -/
theorem Along.inFrame_samePending (hw : w.AllowsWithin) {good : α → Prop}
    (hx : Keeps Machine.WithinSameMonitors x)
    (hgood : ∀ {s m a m'}, good a → x s m = .ok a m' → m.SamePending m') :
    Along w d.Ready x fun a m' => good a → d.Ready m' :=
  .of_keeps hx (fun _ _ _ => hw.step) (fun _ _ _ _ => hw.stop)
    fun _ _ _ _ ready h answer clear => (hgood answer h).trans (ready clear)

theorem Along.inFrame_ready (hw : w.AllowsWithin) (hx : Keeps Machine.WithinSamePending x) :
    Along w d.Ready x fun _ => d.Ready :=
  (Along.inFrame_samePending hw (hx.mono fun _ _ => Machine.WithinSamePending.toWithinSameMonitors)
    fun _ h => (hx.of_ok h).samePending).weaken
    (fun _ ready => ready) fun _ _ h => h trivial

/-! ## What an instruction resolves -/

theorem raise_along (hw : w.AllowsWithin) (className : String) (message : Option String)
    [Throwable.Raised className] :
    Along w P (raise className message) fun _ _ => True :=
  .inFrame hw (raise_keeps className message)

theorem resolveClass_along (hw : w.AllowsWithin) (name : String) :
    Along w d.Ready (resolveClass name) fun c m' => c.isSome → d.Ready m' := by
  refine .inFrame_samePending hw (resolveClass_keeps name) fun {s m a m'} found h => ?_
  obtain ⟨c, rfl⟩ := Option.isSome_iff_exists.mp found
  rw [(resolveClass_some h).1]
  rfl

theorem resolveMethod_along (hw : w.AllowsWithin) (ref : MemberRef) :
    Along w d.Ready (resolveMethod ref) fun c m' => c.isSome → d.Ready m' := by
  refine .inFrame_samePending hw (resolveMethod_keeps ref) fun {s m a m'} found h => ?_
  obtain ⟨c, rfl⟩ := Option.isSome_iff_exists.mp found
  rw [resolveMethod_some h]
  rfl

theorem receiverClass_along (hw : w.AllowsWithin) (v : Value) :
    Along w d.Ready (receiverClass v) fun c m' => c.isSome → d.Ready m' := by
  refine .inFrame_samePending hw (receiverClass_keeps v) fun {s m a m'} found h => ?_
  obtain ⟨c, rfl⟩ := Option.isSome_iff_exists.mp found
  rw [receiverClass_some h]
  rfl

theorem readField_along (hw : w.AllowsWithin) (static : Bool) :
    Along w d.Ready (readField static) fun f m' => f.isSome → d.Ready m' := by
  refine .inFrame_samePending hw (readField_keeps static) fun {s m a m'} found h => ?_
  obtain ⟨f, rfl⟩ := Option.isSome_iff_exists.mp found
  exact readField_some h

/-! ## Calls that depend on the receiver -/

/-- A method can be invoked. -/
abbrev Invokes (w : Ways) (d : Discipline) (host : Host) : Prop :=
  ∀ cls decl, Along w d.Ready (invoke host cls decl) fun _ _ => True

section Calls

variable (hw : w.AllowsWithin) (hi : Invokes w d host)

include hw hi

theorem invokeDeclared_along (decl : MethodDecl) :
    Along w d.Ready (invokeDeclared host decl) fun _ _ => True :=
  (Along.inFrame_ready hw (declaringClass_keeps decl)).bind fun cls => (hi cls decl).discard

theorem invokeSpecial_along :
    Along w d.Ready (invokeSpecial host) fun _ _ => True := by
  unfold invokeSpecial
  refine (Along.inFrame_ready hw readMethodRef_keeps).bind fun ref => ?_
  refine (resolveMethod_along hw ref).bind fun resolved => ?_
  cases resolved with
  | none => exact .pure _ fun _ _ => trivial
  | some resolved =>
      dsimp only
      split
      · exact raise_along hw _ _
      · refine ((Along.inFrame_ready hw frame_keeps).weaken (fun _ ready => ready rfl)
          fun _ _ h => h).bind fun current => ?_
        refine (Along.inFrame_ready hw library_keeps).bind fun lib => ?_
        split
        · exact raise_along hw _ _
        · refine (Along.inFrame_ready hw (peek_keeps _)).bind fun v => ?_
          split
          · exact raise_along hw _ _
          · exact invokeDeclared_along hw hi _

theorem dispatch_along (cls : LoadedClass)
    (ref : MemberRef) :
    Along w d.Ready (dispatch host cls ref) fun _ _ => True := by
  unfold dispatch
  refine (Along.inFrame_ready hw library_keeps).bind fun lib => ?_
  split
  · exact invokeDeclared_along hw hi _
  · exact raise_along hw _ _

theorem invokeVirtual_along :
    Along w d.Ready (invokeVirtual host) fun _ _ => True := by
  unfold invokeVirtual
  refine (Along.inFrame_ready hw readMethodRef_keeps).bind fun ref => ?_
  refine (Along.inFrame_ready hw (receiver_keeps ref)).bind fun v => ?_
  split
  · exact .inFrame hw (invokeOnArray_keeps _ _)
  · refine (receiverClass_along hw v).bind fun cls => ?_
    cases cls with
    | none => exact .pure _ fun _ _ => trivial
    | some cls =>
        refine ((resolveMethod_along hw ref).weaken (fun _ ready => ready rfl)
          fun _ _ h => h).bind fun resolved => ?_
        cases resolved with
        | none => exact .pure _ fun _ _ => trivial
        | some decl =>
            dsimp only
            split
            · exact raise_along hw _ _
            · split
              · exact (invokeDeclared_along hw hi decl).weaken (fun _ ready => ready rfl)
                  fun _ _ h => h
              · exact (dispatch_along hw hi cls ref).weaken (fun _ ready => ready rfl)
                  fun _ _ h => h

theorem invokeInterface_along :
    Along w d.Ready (invokeInterface host) fun _ _ => True := by
  unfold invokeInterface
  refine (Along.inFrame_ready hw readMethodRef_keeps).bind fun ref => ?_
  refine (Along.inFrame_ready hw readU8_keeps.discard).bind fun _ => ?_
  refine (Along.inFrame_ready hw readU8_keeps.discard).bind fun _ => ?_
  refine (Along.inFrame_ready hw (receiver_keeps ref)).bind fun v => ?_
  split
  · exact .inFrame hw (.fail _)
  · refine (receiverClass_along hw v).bind fun cls => ?_
    cases cls with
    | none => exact .pure _ fun _ _ => trivial
    | some cls =>
        refine ((Along.inFrame_ready hw library_keeps).weaken (fun _ ready => ready rfl)
          fun _ _ h => h).bind fun lib => ?_
        split
        · exact dispatch_along hw hi cls ref
        · exact raise_along hw _ _

end Calls

/-! ## Uses of a class -/

/-- A class can be brought into use, and then be used. -/
structure Initialises (w : Ways) (d : Discipline) (host : Host) : Prop where
  /-- A class that can be used leaves the machine ready. -/
  ensure : ∀ cls, Along w d.Ready (ensureInitialised host cls)
    fun usable m' => usable = true → d.Ready m'
  /-- Its use is noted down. -/
  use : ∀ id, Along w d.Ready (useClass id) fun _ => d.Ready

/-- A class in use has its static fields stored into. -/
def Stores (w : Ways) : Prop :=
  ∀ f v, Along w (fun _ => True) (setStatic f v) fun _ _ => True

/-- A class in use has objects made. -/
def Instantiates (w : Ways) : Prop :=
  ∀ cls, Along w (fun _ => True) (orOutOfMemory (newInstance cls false)) fun _ _ => True

section Uses

variable (hw : w.AllowsWithin) (hu : Initialises w d host)

include hw hu

theorem invokeStatic_along (hi : Invokes w d host) :
    Along w d.Ready (invokeStatic host) fun _ _ => True := by
  unfold invokeStatic
  refine (Along.inFrame_ready hw readMethodRef_keeps).bind fun ref => ?_
  refine (resolveClass_along hw _).bind fun cls => ?_
  cases cls with
  | none => exact .pure _ fun _ _ => trivial
  | some cls =>
      refine ((resolveMethod_along hw ref).weaken (fun _ ready => ready rfl)
        fun _ _ h => h).bind fun resolved => ?_
      cases resolved with
      | none => exact .pure _ fun _ _ => trivial
      | some decl =>
          dsimp only
          split
          · exact raise_along hw _ _
          · refine ((Along.inFrame_ready hw (declaringClass_keeps decl)).weaken
              (fun _ ready => ready rfl) fun _ _ h => h).bind fun owner => ?_
            refine (hu.ensure owner).bind fun usable => ?_
            cases usable with
            | true =>
                refine ((hu.use owner.id).weaken (fun _ ready => ready rfl) fun _ _ h => h).bind
                  fun _ => ?_
                exact (hi owner decl).discard
            | false => exact .pure _ fun _ _ => trivial

theorem readStaticField_along :
    Along w d.Ready (readStaticField host) fun f m' => f.isSome → d.Ready m' := by
  unfold readStaticField
  refine (readField_along hw true).bind fun f => ?_
  cases f with
  | none => exact .pure _ fun _ _ found => nomatch found
  | some f =>
      refine ((Along.inFrame_ready hw (findClass_keeps _)).weaken (fun _ ready => ready rfl)
        fun _ _ h => h).bind fun cls => (hu.ensure cls).bind fun usable => ?_
      cases usable with
      | true => exact .pure _ fun _ ready _ => ready rfl
      | false => exact .pure _ fun _ _ found => nomatch found

theorem getStaticField_along :
    Along w d.Ready (getStaticField host) fun _ _ => True := by
  unfold getStaticField
  refine (readStaticField_along hw hu).bind fun f => ?_
  cases f with
  | none => exact .pure _ fun _ _ => trivial
  | some f =>
      refine ((hu.use f.owner.id).weaken (fun _ ready => ready rfl) fun _ _ h => h).bind fun _ => ?_
      exact .inFrame hw (getStatic_push f)

theorem putStaticField_along (store : Stores w) :
    Along w d.Ready (putStaticField host) fun _ _ => True := by
  unfold putStaticField
  refine (readStaticField_along hw hu).bind fun f => ?_
  cases f with
  | none => exact .pure _ fun _ _ => trivial
  | some f =>
      refine ((Along.inFrame_ready hw pop_keeps).weaken (fun _ ready => ready rfl)
        fun _ _ h => h).bind
        fun v => (Along.inFrame_ready hw (.ofExcept _)).bind fun v => ?_
      exact (hu.use f.owner.id).bind fun _ => (store f v).weaken (fun _ _ => trivial)
        fun _ _ h => h

theorem newObject_along (make : Instantiates w) :
    Along w d.Ready (newObject host) fun _ _ => True := by
  unfold newObject
  refine (Along.inFrame_ready hw readClassName_keeps).bind fun name => ?_
  refine (resolveClass_along hw name).bind fun cls => ?_
  cases cls with
  | none => exact .pure _ fun _ _ => trivial
  | some cls =>
      dsimp only
      split
      · exact raise_along hw _ _
      · refine ((hu.ensure cls).weaken (fun _ ready => ready rfl) fun _ _ h => h).bind
          fun usable => ?_
        cases usable with
        | false => exact .pure _ fun _ _ => trivial
        | true =>
            refine ((hu.use cls.id).weaken (fun _ ready => ready rfl) fun _ _ h => h).bind
              fun _ => ?_
            refine ((make cls).weaken (fun _ _ => trivial) fun _ _ h => h).bind
              fun object => ?_
            split
            · exact .inFrame hw (push_keeps rfl)
            · exact .pure _ fun _ _ => trivial

end Uses

/-! ## All instructions -/

end Exec

open Exec (Along Invokes Initialises Stores Instantiates)

/-- Ways for every instruction: they allow what it does within its frame, and they have a way for
whatever calls a method, uses a class, or enters or exits a monitor. -/
structure Ways.Admits (w : Ways) (d : Discipline) (host : Host) : Prop extends w.AllowsWithin where
  /-- A method is invoked. -/
  invoke : Invokes w d host
  /-- A static field is read. -/
  getStatic : Along w d.Ready (Exec.getStaticField host) fun _ _ => True
  /-- A static field is written. -/
  putStatic : Along w d.Ready (Exec.putStaticField host) fun _ _ => True
  /-- A static method is called. -/
  invokeStatic : Along w d.Ready (Exec.invokeStatic host) fun _ _ => True
  /-- An object is made. -/
  newObject : Along w d.Ready (Exec.newObject host) fun _ _ => True
  /-- A monitor is entered. -/
  monitorEnter : Along w d.Ready Exec.monitorEnter fun _ _ => True
  /-- A monitor is exited. -/
  monitorExit : Along w d.Ready Exec.monitorExit fun _ _ => True

/-- Ways for every instruction, if bringing a class into use and using it are apart. -/
theorem Ways.Admits.of_initialises {w : Ways} {d : Discipline} {host : Host}
    (within : w.AllowsWithin)
    (invoke : Invokes w d host) (uses : Initialises w d host) (store : Stores w)
    (make : Instantiates w)
    (enter : Along w d.Ready Exec.monitorEnter fun _ _ => True)
    (exit : Along w d.Ready Exec.monitorExit fun _ _ => True) : w.Admits d host where
  toAllowsWithin := within
  invoke := invoke
  getStatic := Exec.getStaticField_along within uses
  putStatic := Exec.putStaticField_along within uses store
  invokeStatic := Exec.invokeStatic_along within uses invoke
  newObject := Exec.newObject_along within uses make
  monitorEnter := enter
  monitorExit := exit

/-- The moves are ways for every instruction. -/
theorem moves_admits {d : Discipline} {host : Host} (hn : host.natives.Keep d host.toReentry)
    (hset : host.Settles) : (moves d host.toReentry).Admits d host :=
  .of_initialises ⟨fun within => .within within.toWithin, fun within => .within within.toWithin⟩
    (Exec.invoke_along hn)
    ⟨fun cls => (Exec.ensureInitialised_along (acts_calls host) hset cls).moves_of_acts,
      fun id => .sameThread_moves (Exec.useClass_sameThreadMonitors id).sameThread⟩
    (fun f v => .within (Exec.setStatic_keeps f v))
    (fun cls => .within (Exec.orOutOfMemory_keeps (Exec.newInstance_freely cls false)))
    (.within Exec.monitorEnter_within) (.within Exec.monitorExit_within)

namespace Exec

variable {w : Ways} {d : Discipline} {host : Host}

/-- Every instruction that goes on with the next one goes in ways that admit what it needs. -/
theorem performPlain_along (hw : w.Admits d host) {op : Opcode} (plain : op.namesAddress = false) :
    Along w d.Ready (performPlain host op) fun _ _ => True := by
  cases op with
  | nop => exact .pure _ fun _ _ => trivial
  | push v => exact .inFrame hw.toAllowsWithin (push_keeps plain)
  | pushByte => exact .inFrame hw.toAllowsWithin (readI8_keeps.bind fun _ => push_keeps rfl)
  | pushShort => exact .inFrame hw.toAllowsWithin (readI16_keeps.bind fun _ => push_keeps rfl)
  | loadConstant =>
      exact .inFrame hw.toAllowsWithin (readU8_keeps.bind fun _ => loadConstant_keeps _)
  | loadConstantWide =>
      exact .inFrame hw.toAllowsWithin (readU16_keeps.bind fun _ => loadConstant_keeps _)
  | loadLongConstant =>
      exact .inFrame hw.toAllowsWithin (readU16_keeps.bind fun _ => loadLongConstant_keeps _)
  | load kind =>
      exact .inFrame hw.toAllowsWithin (readSlot_keeps.bind fun _ => loadLocal_keeps kind _)
  | loadAt kind slot => exact .inFrame hw.toAllowsWithin (loadLocal_keeps kind slot)
  | store kind =>
      exact .inFrame hw.toAllowsWithin (readSlot_keeps.bind fun _ => storeLocal_keeps kind _)
  | storeAt kind slot => exact .inFrame hw.toAllowsWithin (storeLocal_keeps kind slot)
  | arrayLoad kind => exact .inFrame hw.toAllowsWithin (arrayLoad_keeps kind)
  | arrayStore kind => exact .inFrame hw.toAllowsWithin (arrayStore_keeps kind)
  | drop words => exact .inFrame hw.toAllowsWithin (popWords_keeps words).discard
  | dup words => exact .inFrame hw.toAllowsWithin (duplicate_keeps words)
  | dupUnder words under => exact .inFrame hw.toAllowsWithin (duplicateUnder_keeps words under)
  | swap => exact .inFrame hw.toAllowsWithin swap_keeps
  | arith kind op => exact .inFrame hw.toAllowsWithin (arith_keeps kind op)
  | neg kind => exact .inFrame hw.toAllowsWithin (negate_keeps kind)
  | shift kind op => exact .inFrame hw.toAllowsWithin (shift_keeps kind op)
  | bitwise kind op => exact .inFrame hw.toAllowsWithin (bitwise_keeps kind op)
  | increment =>
      exact .inFrame hw.toAllowsWithin (readSlot_keeps.bind fun _ => readI8_keeps.bind fun _ =>
        incrementLocal_keeps _ _)
  | convert source target => exact .inFrame hw.toAllowsWithin (convert_keeps source target)
  | narrow target => exact .inFrame hw.toAllowsWithin (narrow_keeps target)
  | compareLong => exact .inFrame hw.toAllowsWithin compareLongs_keeps
  | compareFloat unordered => exact .inFrame hw.toAllowsWithin (compareFloats_keeps unordered)
  | compareDouble unordered => exact .inFrame hw.toAllowsWithin (compareDoubles_keeps unordered)
  | ifZero c =>
      exact .inFrame hw.toAllowsWithin (branchIf_keeps (popInt_keeps.bind fun _ => .pure _))
  | ifCompare c => exact .inFrame hw.toAllowsWithin (branchIf_keeps (popCompare_keeps c))
  | ifSame expected =>
      exact .inFrame hw.toAllowsWithin (branchIf_keeps (popSame_keeps.bind fun _ => .pure _))
  | ifNull expected =>
      exact .inFrame hw.toAllowsWithin (branchIf_keeps (popNull_keeps.bind fun _ => .pure _))
  | goto => exact .inFrame hw.toAllowsWithin (readI16_keeps.bind fun _ => branch_keeps _)
  | gotoWide => exact .inFrame hw.toAllowsWithin (readI32_keeps.bind fun _ => branch_keeps _)
  | jsr => exact .inFrame hw.toAllowsWithin (readI16_keeps.bind fun _ => jumpSubroutine_keeps _)
  | jsrWide => exact .inFrame hw.toAllowsWithin (readI32_keeps.bind fun _ => jumpSubroutine_keeps _)
  | ret => exact .inFrame hw.toAllowsWithin (readSlot_keeps.bind fun _ => returnSubroutine_keeps _)
  | tableSwitch => exact .inFrame hw.toAllowsWithin tableSwitch_keeps
  | lookupSwitch => exact .inFrame hw.toAllowsWithin lookupSwitch_keeps
  | returnValue => exact .pure _ fun _ _ => trivial
  | returnVoid => exact .pure _ fun _ _ => trivial
  | getStatic => exact hw.getStatic
  | putStatic => exact hw.putStatic
  | getField => exact .inFrame hw.toAllowsWithin getInstanceField_keeps
  | putField => exact .inFrame hw.toAllowsWithin putInstanceField_keeps
  | invokeVirtual => exact invokeVirtual_along hw.toAllowsWithin hw.invoke
  | invokeSpecial => exact invokeSpecial_along hw.toAllowsWithin hw.invoke
  | invokeStatic => exact hw.invokeStatic
  | invokeInterface => exact invokeInterface_along hw.toAllowsWithin hw.invoke
  | newObject => exact hw.newObject
  | newArray => exact .inFrame hw.toAllowsWithin newArray_keeps
  | newReferenceArray => exact .inFrame hw.toAllowsWithin newReferenceArray_keeps
  | newMultiArray => exact .inFrame hw.toAllowsWithin newMultiArray_keeps
  | arrayLength => exact .inFrame hw.toAllowsWithin pushArrayLength_keeps
  | throwReference => exact .inFrame hw.toAllowsWithin throwReference_keeps
  | checkCast => exact .inFrame hw.toAllowsWithin checkCast_keeps
  | instanceOf => exact .inFrame hw.toAllowsWithin instanceOf_keeps
  | monitorEnter => exact hw.monitorEnter
  | monitorExit => exact hw.monitorExit
  | wide => exact .inFrame hw.toAllowsWithin performWide_keeps
  | unsupported mnemonic => exact .inFrame hw.toAllowsWithin (frame_keeps.bind fun _ => .fail _)
  | unknown byte => exact .inFrame hw.toAllowsWithin (frame_keeps.bind fun _ => .fail _)

end Exec

end JavaMachine
