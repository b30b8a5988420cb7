import JavaMachine.Constant
import JavaMachine.Descriptor

/-!
# Class declarations

A class declares its place in the hierarchy, its constant pool, its fields and its methods.
A `ClassSpec` is what a host writes down, with descriptors as texts.  `ClassSpec.build` reads the
descriptors, those of the methods before those of the fields, and gives a `ClassDecl`.
-/

namespace JavaMachine

/-! ## Access flags -/

/-- The access flags of a class, a field or a method. -/
structure Flags where
  /-- The flag bits. -/
  bits : UInt16
  deriving Repr, DecidableEq

namespace Flags

/-- Whether a flag of the mask is set. -/
def has (f : Flags) (mask : UInt16) : Bool := f.bits &&& mask != 0

/-- Private: never overridden. -/
def isPrivate (f : Flags) : Bool := f.has 0x0002

/-- Static: a member of the class and not of its instances. -/
def isStatic (f : Flags) : Bool := f.has 0x0008

/-- Synchronized, of a method: a call holds a monitor. -/
def isSynchronized (f : Flags) : Bool := f.has 0x0020

/-- Super, of a class: special calls start at its direct superclass. -/
def isSuper (f : Flags) : Bool := f.has 0x0020

/-- Native: implemented by the host. -/
def isNative (f : Flags) : Bool := f.has 0x0100

/-- Interface, of a class. -/
def isInterface (f : Flags) : Bool := f.has 0x0200

/-- Abstract: without an implementation. -/
def isAbstract (f : Flags) : Bool := f.has 0x0400

end Flags

/-! ## Members -/

/-- A row of an exception table: a range of addresses, its end not included, and the handler for
the exceptions of a class raised there. -/
structure Handler where
  /-- The first address of the range. -/
  startPc : UInt16
  /-- The address behind the range. -/
  endPc : UInt16
  /-- The address of the handler. -/
  handlerPc : UInt16
  /-- The class that the handler takes, every class when absent. -/
  catchType : Option String
  deriving Repr, DecidableEq

/-- Whether an address lies in the range. -/
def Handler.covers (h : Handler) (pc : Nat) : Bool := h.startPc.toNat ≤ pc && pc < h.endPc.toNat

/-- A method of a class. -/
structure MethodDecl where
  /-- The name. -/
  name : String
  /-- The descriptor, as it was written. -/
  descriptor : String
  /-- The access flags. -/
  flags : Flags
  /-- The class that declares the method. -/
  className : String
  /-- The types that the descriptor stands for. -/
  type : MethodType
  /-- The descriptor does stand for them. -/
  typed : MethodType.parse descriptor = .ok type
  /-- The declared depth of the operand stack. -/
  maxStack : UInt16
  /-- The declared number of local variable slots. -/
  maxLocals : UInt16
  /-- The code. -/
  code : ByteArray
  /-- The exception table, in declaration order. -/
  handlers : List Handler

namespace MethodDecl

/-- An instance constructor. -/
def isConstructor (m : MethodDecl) : Bool := m.name == "<init>"

/-- One for the receiver of an instance method. -/
def receiverCount (m : MethodDecl) : Nat := if m.flags.isStatic then 0 else 1

/-- The number of operands that a call takes, the receiver included. -/
def argCount (m : MethodDecl) : Nat := m.type.args.length + m.receiverCount

/-- The number of slots that the arguments take, the receiver included. -/
def argSlots (m : MethodDecl) : Nat :=
  m.type.args.foldl (fun n t => n + t.size) m.receiverCount

/-- The number of local variable slots of a frame: as declared, and never fewer than the
arguments take. -/
def localSlots (m : MethodDecl) : Nat := max m.maxLocals.toNat m.argSlots

/-- The method as messages and native look-ups name it. -/
def signature (m : MethodDecl) : String := s!"{m.className}.{m.name}{m.descriptor}"

end MethodDecl

/-- A field of a class. -/
structure FieldDecl where
  /-- The name. -/
  name : String
  /-- The descriptor, as it was written. -/
  descriptor : String
  /-- The access flags. -/
  flags : Flags
  /-- The class that declares the field. -/
  className : String
  /-- The type that the descriptor stands for. -/
  type : JType
  deriving Repr, DecidableEq

namespace FieldDecl

/-- A field as messages name it. -/
def path (f : FieldDecl) : String := s!"{f.className}.{f.name}"

end FieldDecl

/-! ## Classes -/

/-- A class. -/
structure ClassDecl where
  /-- The name. -/
  name : String
  /-- The direct superclass. -/
  superName : Option String
  /-- The direct superinterfaces, in declaration order. -/
  interfaces : List String
  /-- The access flags. -/
  flags : Flags
  /-- The constant pool. -/
  pool : Pool
  /-- The methods, in declaration order. -/
  methods : List MethodDecl
  /-- The fields, in declaration order. -/
  fields : List FieldDecl

namespace ClassDecl

/-- The first method of a name and descriptor that the class itself declares. -/
def method? (c : ClassDecl) (name descriptor : String) : Option MethodDecl :=
  c.methods.find? fun m => m.name == name && m.descriptor == descriptor

/-- The place of the first field of a name that the class itself declares. -/
def fieldIdx? (c : ClassDecl) (name : String) : Option Nat :=
  c.fields.findIdx? (·.name == name)

/-- A class of which no instance can be made. -/
def isUninstantiable (c : ClassDecl) : Bool := c.flags.isInterface || c.flags.isAbstract

end ClassDecl

/-! ## What a host writes down -/

/-- A method as a host writes it down. -/
structure MethodSpec where
  /-- The name. -/
  name : String
  /-- The descriptor. -/
  descriptor : String
  /-- The access flags, public when not given. -/
  flags : UInt16 := 0x0001
  /-- The depth of the operand stack. -/
  maxStack : UInt16 := 16
  /-- The number of local variable slots, what the arguments take when absent. -/
  maxLocals : Option UInt16 := none
  /-- The code. -/
  code : ByteArray := .empty
  /-- The exception table. -/
  handlers : List Handler := []

/-- Reads a method of a class. -/
def MethodSpec.build (className : String) (s : MethodSpec) : Except Fault MethodDecl :=
  match typed : MethodType.parse s.descriptor with
  | .error f => .error f
  | .ok type =>
      let m : MethodDecl :=
        { name := s.name, descriptor := s.descriptor, flags := ⟨s.flags⟩, className, type, typed
          maxStack := s.maxStack, maxLocals := 0, code := s.code, handlers := s.handlers }
      let slots := m.argSlots.toUInt16
      .ok { m with maxLocals := max (s.maxLocals.getD slots) slots }

/-- A field as a host writes it down. -/
structure FieldSpec where
  /-- The name. -/
  name : String
  /-- The descriptor. -/
  descriptor : String
  /-- The access flags. -/
  flags : UInt16

/-- Reads a field of a class. -/
def FieldSpec.build (className : String) (s : FieldSpec) : Except Fault FieldDecl := do
  let type ← JType.ofField s.descriptor
  return { name := s.name, descriptor := s.descriptor, flags := ⟨s.flags⟩, className, type }

/-- The class above every other one. -/
def objectName : String := "java/lang/Object"

/-- A class as a host writes it down. -/
structure ClassSpec where
  /-- The name. -/
  name : String
  /-- The superclass; when absent, every class but the topmost one extends that one. -/
  superName : Option String := if name == objectName then none else some objectName
  /-- The superinterfaces. -/
  interfaces : List String := []
  /-- The access flags, public and super when not given. -/
  flags : UInt16 := 0x0021
  /-- The constants, in the order in which they are put into the pool. -/
  constants : List Constant := []
  /-- The fields. -/
  fields : List FieldSpec := []
  /-- The methods. -/
  methods : List MethodSpec := []

namespace ClassSpec

/-- The constant pool and the index of each constant. -/
def numbered (s : ClassSpec) : Pool × List UInt16 := Pool.blank.addAll s.constants

/-- Reads a class. -/
def build (s : ClassSpec) : Except Fault ClassDecl := do
  let methods ← s.methods.mapM (MethodSpec.build s.name)
  let fields ← s.fields.mapM (FieldSpec.build s.name)
  return { name := s.name, superName := s.superName, interfaces := s.interfaces,
           flags := ⟨s.flags⟩, pool := s.numbered.1, methods, fields }

end ClassSpec

end JavaMachine
