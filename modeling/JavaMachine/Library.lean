import JavaMachine.ClassDecl
import JavaMachine.Value

/-!
# The class library and its hierarchy

The library holds the registered classes, the newest first.  A name stands for the class that was
registered last under it; an older class of that name stays what it is for everything that already
refers to it.

Everything else in this module is a walk over the hierarchy: `chain` follows superclasses,
`isSubclass` superclasses and superinterfaces, and the look-ups of fields and methods visit
classes in the order that each of them prescribes.  A walk has the number of classes as its
budget.  That is enough whenever no class is its own ancestor, because a walk then meets every
class at most once on its way up.
-/

namespace JavaMachine

/-- A registered class. -/
structure LoadedClass extends ClassDecl where
  /-- The place of the class in the order of registration. -/
  id : Nat

/-- A registered class as values refer to it. -/
def LoadedClass.ref (c : LoadedClass) : ClassRef := ⟨c.id, c.name⟩

/-- A field together with the class that holds its static value. -/
structure FieldRef where
  /-- The declaring class. -/
  owner : ClassRef
  /-- The place of the field among the fields of its class. -/
  index : Nat
  /-- The field. -/
  decl : FieldDecl
  deriving Repr, DecidableEq

/-- The first field of a name that a class itself declares. -/
def LoadedClass.field? (c : LoadedClass) (name : String) : Option FieldRef := do
  let index ← c.fieldIdx? name
  return ⟨c.ref, index, ← c.fields[index]?⟩

/-- The registered classes. -/
structure Library where
  /-- The classes, the one registered last first. -/
  classes : List LoadedClass := []

namespace Library

/-- The class of a name: the one registered last. -/
def find? (lib : Library) (name : String) : Option LoadedClass :=
  lib.classes.find? (·.name == name)

/-- The class of a name, or the fault that there is none. -/
def find (lib : Library) (name : String) : Except Fault LoadedClass :=
  match lib.find? name with
  | some c => .ok c
  | none => .error (.classNotFound name)

/-- Registers a class under its name. -/
def register (lib : Library) (decl : ClassDecl) : Library × LoadedClass :=
  let c : LoadedClass := { decl with id := lib.classes.length }
  (⟨c :: lib.classes⟩, c)

/-- The number of names that stand for a class. -/
def size (lib : Library) : Nat := (lib.classes.map (·.name)).eraseDups.length

/-- The budget of a walk. -/
def budget (lib : Library) : Nat := lib.classes.length

/-! ## Superclasses -/

/-- The class of a name and its superclasses, nearest first, within a budget. -/
def chainWithin (lib : Library) : Nat → String → List LoadedClass
  | 0, _ => []
  | n + 1, name =>
      match lib.find? name with
      | none => []
      | some c =>
          c :: match c.superName with
            | none => []
            | some s => chainWithin lib n s

/-- The class of a name and its superclasses, nearest first. -/
def chain (lib : Library) (name : String) : List LoadedClass := lib.chainWithin lib.budget name

/-- The superclasses of a class, nearest first. -/
def above (lib : Library) (c : ClassDecl) : List LoadedClass :=
  match c.superName with
  | none => []
  | some s => lib.chain s

/-- A class and its superclasses, nearest first. -/
def lineage (lib : Library) (c : LoadedClass) : List LoadedClass := c :: lib.above c.toClassDecl

/-- The fields of an object of a class: the instance fields of the class, then those of its
superclasses, nearest first. -/
def instanceFields (lib : Library) (c : LoadedClass) : List FieldDecl :=
  (lib.lineage c).flatMap fun d => d.fields.filter fun f => !f.flags.isStatic

/-! ## Ancestors -/

/-- Whether a name is reached from another by going up at most so many times. -/
def isSubclassWithin (lib : Library) : Nat → String → String → Bool
  | 0, derived, ancestor => derived == ancestor
  | n + 1, derived, ancestor =>
      derived == ancestor ||
      match lib.find? derived with
      | none => false
      | some c =>
          c.interfaces.any (isSubclassWithin lib n · ancestor) ||
          match c.superName with
          | none => false
          | some s => isSubclassWithin lib n s ancestor

/-- Whether a class is another one, extends it or implements it, directly or not. -/
def isSubclass (lib : Library) (derived ancestor : String) : Bool :=
  lib.isSubclassWithin lib.budget derived ancestor

/-! ## Fields -/

/-- The field of a name, searched in a class, then in its superinterfaces, then in its superclass,
within a budget. -/
def findFieldWithin (lib : Library) : Nat → String → String → Option FieldRef
  | 0, _, _ => none
  | n + 1, className, name => do
      let c ← lib.find? className
      c.field? name <|>
        c.interfaces.findSome? (findFieldWithin lib n · name) <|>
        c.superName.bind (findFieldWithin lib n · name)

/-- The field of a name, searched in a class, then in its superinterfaces, then in its
superclass. -/
def findField (lib : Library) (className name : String) : Option FieldRef :=
  lib.findFieldWithin lib.budget className name

/-! ## Methods -/

/-- A method of the superinterfaces of a class, within a budget: each direct superinterface and
what stands above it, in declaration order, then the same for the superclass. -/
def interfaceMethodWithin (lib : Library) : Nat → String → String → String → Option MethodDecl
  | 0, _, _, _ => none
  | n + 1, className, name, descriptor => do
      let c ← lib.find? className
      c.interfaces.findSome? (fun i =>
        (lib.find? i).bind (·.method? name descriptor) <|>
          interfaceMethodWithin lib n i name descriptor) <|>
        c.superName.bind (interfaceMethodWithin lib n · name descriptor)

/-- A method of the superinterfaces of a class. -/
def interfaceMethod (lib : Library) (className name descriptor : String) : Option MethodDecl :=
  lib.interfaceMethodWithin lib.budget className name descriptor

/-- The method that a reference means: the nearest on the superclass chain, else one of the
superinterfaces. -/
def resolveMethod (lib : Library) (className name descriptor : String) : Option MethodDecl :=
  (lib.chain className).findSome? (·.method? name descriptor) <|>
    lib.interfaceMethod className name descriptor

/-- The method that a call on an object of a class runs: the nearest instance method on its
superclass chain, else a method of its superinterfaces that has an implementation. -/
def findVirtual (lib : Library) (c : LoadedClass) (name descriptor : String) :
    Option MethodDecl :=
  (lib.lineage c).findSome? (fun d => (d.method? name descriptor).filter (!·.flags.isStatic)) <|>
    (lib.interfaceMethod c.name name descriptor).filter (!·.flags.isAbstract)

/-- The method that a special call of a class runs.  When the class has the super flag, the
reference names one of its superclasses and the method is no constructor, the search starts again
at the direct superclass, and nothing is found when the nearest method there is abstract.
Otherwise it is the method that the reference means. -/
def selectSpecial (lib : Library) (current : LoadedClass) (className : String)
    (resolved : MethodDecl) : Option MethodDecl :=
  let above := lib.above current.toClassDecl
  if current.flags.isSuper && className != current.name && !resolved.isConstructor &&
      above.any (·.name == className) then
    (above.findSome? (·.method? resolved.name resolved.descriptor)).filter (!·.flags.isAbstract)
  else some resolved

/-! ## Assignability -/

/-- The class name of a component descriptor: an array keeps its descriptor, and a primitive type
has none. -/
def componentName? (descriptor : List Char) : Option (List Char) :=
  match descriptor with
  | '[' :: _ => some descriptor
  | 'L' :: rest => if rest.getLast? = some ';' then some rest.dropLast else none
  | _ => none

/-- The classes and interfaces to which every array is assignable. -/
def arrayAncestors : List String := [objectName, "java/lang/Cloneable", "java/io/Serializable"]

/-- Assignability of type names, within a budget of array dimensions. -/
def isAssignableWithin (lib : Library) : Nat → List Char → List Char → Bool
  | fuel, source, target =>
      source == target ||
      match source, target, fuel with
      | '[' :: s, '[' :: t, n + 1 =>
          match componentName? s, componentName? t with
          | some s, some t => isAssignableWithin lib n s t
          | _, _ => false
      | '[' :: _, '[' :: _, 0 => false
      | _, '[' :: _, _ => false
      | '[' :: _, _, _ => arrayAncestors.contains (String.ofList target)
      | _, _, _ => lib.isSubclass (String.ofList source) (String.ofList target)

/-- Whether a value of a type may stand where another type is expected.  Classes are given by name
and arrays by descriptor; arrays are compared by their components. -/
def isAssignable (lib : Library) (source target : String) : Bool :=
  lib.isAssignableWithin source.length source.toList target.toList

/-! ## Exception tables -/

/-- The first row of a method's exception table that covers an address and takes exceptions of a
class. -/
def findHandler (lib : Library) (m : MethodDecl) (pc : Nat) (exceptionClass : String) :
    Option Handler :=
  m.handlers.find? fun h => h.covers pc && h.catchType.all (lib.isSubclass exceptionClass)

end Library

end JavaMachine
