/-!
# Classes that the machine itself uses

The names of the exception classes that instructions and natives raise, and of the other classes
that the machine refers to.
-/

namespace JavaMachine

namespace Throwable

/-- A method without an implementation was called. -/
def abstractMethodError : String := "java/lang/AbstractMethodError"

/-- An integer was divided by zero. -/
def arithmeticException : String := "java/lang/ArithmeticException"

/-- An index or a range does not lie in its array. -/
def arrayIndexOutOfBoundsException : String := "java/lang/ArrayIndexOutOfBoundsException"

/-- An element does not fit into its array. -/
def arrayStoreException : String := "java/lang/ArrayStoreException"

/-- An object is not of the type it was cast to. -/
def classCastException : String := "java/lang/ClassCastException"

/-- A monitor was exited by a thread that does not own it. -/
def illegalMonitorStateException : String := "java/lang/IllegalMonitorStateException"

/-- A member is static where it may not be, or the other way round, or an interface is not
implemented. -/
def incompatibleClassChangeError : String := "java/lang/IncompatibleClassChangeError"

/-- An object of an interface or an abstract class was asked for. -/
def instantiationError : String := "java/lang/InstantiationError"

/-- An array of negative length was asked for. -/
def negativeArraySizeException : String := "java/lang/NegativeArraySizeException"

/-- A class is missing, or its initialisation has failed. -/
def noClassDefFoundError : String := "java/lang/NoClassDefFoundError"

/-- A field reference means no field. -/
def noSuchFieldError : String := "java/lang/NoSuchFieldError"

/-- A method reference means no method. -/
def noSuchMethodError : String := "java/lang/NoSuchMethodError"

/-- Null stands where an object is needed. -/
def nullPointerException : String := "java/lang/NullPointerException"

/-- The heap is full, or an array is too long. -/
def outOfMemoryError : String := "java/lang/OutOfMemoryError"

/-- A thread has too many frames. -/
def stackOverflowError : String := "java/lang/StackOverflowError"

/-- A native method has no implementation. -/
def unsatisfiedLinkError : String := "java/lang/UnsatisfiedLinkError"

end Throwable

/-- The class of class objects. -/
def classClassName : String := "java/lang/Class"

/-- The class of strings. -/
def stringClassName : String := "java/lang/String"

end JavaMachine
