import JavaMachine.Machine.Basic

/-!
# Bootstrap classes

The classes that the machine relies on: the topmost class, the two interfaces of arrays, the
classes of classes, strings, the system, threads and their groups, and the throwables that
instructions and natives raise.
-/

namespace JavaMachine.Bootstrap

/-- The throwables and their superclasses, superclasses first. -/
def throwables : List (String × String) :=
  [("java/lang/Throwable", objectName),
   ("java/lang/Exception", "java/lang/Throwable"),
   ("java/lang/Error", "java/lang/Throwable"),
   ("java/lang/RuntimeException", "java/lang/Exception"),
   ("java/lang/ReflectiveOperationException", "java/lang/Exception"),
   ("java/lang/ClassNotFoundException", "java/lang/ReflectiveOperationException"),
   ("java/lang/ArithmeticException", "java/lang/RuntimeException"),
   ("java/lang/ArrayStoreException", "java/lang/RuntimeException"),
   ("java/lang/ClassCastException", "java/lang/RuntimeException"),
   ("java/lang/IllegalMonitorStateException", "java/lang/RuntimeException"),
   ("java/lang/IndexOutOfBoundsException", "java/lang/RuntimeException"),
   ("java/lang/ArrayIndexOutOfBoundsException", "java/lang/IndexOutOfBoundsException"),
   ("java/lang/NegativeArraySizeException", "java/lang/RuntimeException"),
   ("java/lang/NullPointerException", "java/lang/RuntimeException"),
   ("java/lang/LinkageError", "java/lang/Error"),
   ("java/lang/NoClassDefFoundError", "java/lang/LinkageError"),
   ("java/lang/UnsatisfiedLinkError", "java/lang/LinkageError"),
   ("java/lang/IncompatibleClassChangeError", "java/lang/LinkageError"),
   ("java/lang/AbstractMethodError", "java/lang/IncompatibleClassChangeError"),
   ("java/lang/IllegalAccessError", "java/lang/IncompatibleClassChangeError"),
   ("java/lang/InstantiationError", "java/lang/IncompatibleClassChangeError"),
   ("java/lang/NoSuchFieldError", "java/lang/IncompatibleClassChangeError"),
   ("java/lang/NoSuchMethodError", "java/lang/IncompatibleClassChangeError"),
   ("java/lang/VirtualMachineError", "java/lang/Error"),
   ("java/lang/OutOfMemoryError", "java/lang/VirtualMachineError"),
   ("java/lang/StackOverflowError", "java/lang/VirtualMachineError")]

/-- A throwable: its constructor calls that of its superclass, and the topmost one has a
message. -/
def throwable (name superName : String) : ClassSpec where
  name := name
  superName := some superName
  constants := [.method ⟨superName, "<init>", "()V"⟩]
  fields :=
    if name == "java/lang/Throwable" then [⟨"detailMessage", "Ljava/lang/String;", 0⟩] else []
  methods :=
    [{ name := "<init>", descriptor := "()V", code := ⟨#[0x2a, 0xb7, 0x00, 0x01, 0xb1]⟩ }]

/-- The bootstrap classes in the order in which they are registered. -/
def classes : List ClassSpec :=
  [{ name := objectName
     methods :=
       [{ name := "<init>", descriptor := "()V", code := ⟨#[0xb1]⟩ },
        { name := "hashCode", descriptor := "()I", flags := 0x0101 }] },
   { name := "java/lang/Cloneable", flags := 0x0601 },
   { name := "java/io/Serializable", flags := 0x0601 },
   { name := "java/lang/Class"
     interfaces := ["java/io/Serializable"]
     methods :=
       [{ name := "getName", descriptor := "()Ljava/lang/String;", flags := 0x0101 }] },
   { name := "java/lang/String"
     interfaces := ["java/io/Serializable"]
     fields := [⟨"value", "[C", 0⟩] },
   { name := "java/lang/System"
     methods :=
       [{ name := "arraycopy", descriptor := "(Ljava/lang/Object;ILjava/lang/Object;II)V"
          flags := 0x0109 }] },
   { name := "java/lang/ThreadGroup"
     methods :=
       [{ name := "uncaughtException"
          descriptor := "(Ljava/lang/Thread;Ljava/lang/Throwable;)V", flags := 0x0101 }] },
   { name := "java/lang/Thread"
     fields := [⟨"group", "Ljava/lang/ThreadGroup;", 0⟩, ⟨"name", "Ljava/lang/String;", 0⟩] }] ++
    throwables.map fun (name, superName) => throwable name superName

/-- Reads a class and registers it. -/
def define (s : ClassSpec) : Exec LoadedClass := do Exec.register (← Exec.ofExcept s.build)

/-- Registers the bootstrap classes. -/
def load : Exec Unit := classes.forM fun s => discard (define s)

end JavaMachine.Bootstrap
