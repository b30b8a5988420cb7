import JavaMachine.Machine.Basic

/-!
# Showing values and classes

What a host sees of a machine.  A value is shown with what its handle stands for, down to a depth:
an array with its first elements, a string with its text, any other object with its fields.  The
heap decides what a handle stands for, not the kind of the reference.  A class is described with
its members and with how far its initialisation has come.
-/

namespace JavaMachine

/-! ## Names -/

/-- The name of an element kind. -/
def ElementKind.name : ElementKind → String
  | boolean => "Boolean"
  | char => "Char"
  | float => "Float"
  | double => "Double"
  | byte => "Byte"
  | short => "Short"
  | int => "Int"
  | long => "Long"
  | reference => "Reference"

/-- The element kinds, in the order of their type codes. -/
def ElementKind.all : List ElementKind :=
  [.boolean, .char, .float, .double, .byte, .short, .int, .long, .reference]

/-- The name of the kind of a type. -/
def JType.kindName : JType → String
  | int => "Int"
  | long => "Long"
  | float => "Float"
  | double => "Double"
  | void => "Void"
  | byte => "Byte"
  | char => "Char"
  | short => "Short"
  | boolean => "Boolean"
  | reference _ => "Reference"
  | array _ => "Array"

/-- The name of a state of initialisation. -/
def InitState.name : InitState → String
  | uninitialised => "Uninitialised"
  | initialising _ => "Initialising"
  | initialised => "Initialised"
  | erroneous => "Erroneous"

/-! ## Values -/

namespace World

/-- The number of elements of an array that are shown. -/
def shownElements : Nat := 64

/-- The text of an object, if it is a string. -/
def textOf? (w : World) (h : Handle) : Option String :=
  match w.heap.readString h with
  | .ok text => text
  | .error _ => none

/-- A value with what its handle stands for, down to a depth. -/
def shown (w : World) : Nat → Value → Answer
  | 0, v => .value v
  | depth + 1, v =>
      match v with
      | .object h | .array h =>
          match w.heap.entry h with
          | .error f => .fault f
          | .ok (.array a) =>
              .record
                [("ref", .number h.index), ("desc", .text a.descriptor),
                 ("type", .text a.kind.name), ("len", .number a.elements.size),
                 ("elems", .list ((a.elements.take shownElements).toList.map (shown w depth)))]
          | .ok (.object cls _) =>
              match w.textOf? h with
              | some text =>
                  .record [("ref", .number h.index), ("class", .text cls.name),
                           ("text", .text text)]
              | none =>
                  .record
                    [("ref", .number h.index), ("class", .text cls.name),
                     ("fields", .list ((w.library.instanceFields cls).map fun f =>
                       .list [.text f.className, .text f.name,
                              .ofExcept (shown w depth) (w.heap.getField h f)]))]
      | v => .value v

end World

/-! ## Classes -/

/-- A row of an exception table. -/
def Handler.described (h : Handler) : Answer :=
  .list [.number h.startPc.toNat, .number h.endPc.toNat, .number h.handlerPc.toNat,
         .ofText? h.catchType]

/-- A field with its static value. -/
def FieldDecl.described (f : FieldDecl) (value : Option Value) : Answer :=
  .list [.text f.className, .text f.name, .text f.descriptor, .number f.flags.bits.toNat,
         .text f.type.kindName,
         if f.flags.isStatic then .ofValue? value else .none]

/-- A method. -/
def MethodDecl.described (m : MethodDecl) : Answer :=
  .record
    [("sig", .text m.signature), ("flags", .number m.flags.bits.toNat),
     ("is", .list ([m.flags.isStatic, m.flags.isNative, m.flags.isAbstract,
                    m.flags.isSynchronized, m.flags.isPrivate, m.isConstructor].map .flag)),
     ("args", .list (m.type.args.map fun t => .text t.kindName)),
     ("ret", .text m.type.result.kindName),
     ("arg_count", .number m.argCount), ("arg_slots", .number m.argSlots),
     ("max_stack", .number m.maxStack.toNat), ("max_locals", .number m.maxLocals.toNat),
     ("code_len", .number m.code.size), ("ex", .list (m.handlers.map Handler.described))]

/-- A class with its state and the entry count of its monitor. -/
def ClassDecl.described (c : ClassDecl) (state : ClassState) (entries : Nat) : Answer :=
  .record
    [("name", .text c.name), ("super", .ofText? c.superName),
     ("interfaces", .list (c.interfaces.map .text)), ("flags", .number c.flags.bits.toNat),
     ("interface", .flag c.flags.isInterface), ("acc_super", .flag c.flags.isSuper),
     ("init", .text state.init.name), ("initialised", .flag (state.init == .initialised)),
     ("monitor", .number entries),
     ("fields", .list ((c.fields.zipIdx).map fun (f, i) => f.described state.statics[i]?)),
     ("methods", .list (c.methods.map MethodDecl.described))]

end JavaMachine
