import JavaMachine.Bootstrap
import JavaMachine.CoreNatives
import JavaMachine.Run

/-!
# The factorial demonstration

A class with one method that computes factorials by recursion, and a program that calls it for a
few arguments on one thread.  The program reports each result and, at the end, the number of
instructions; it gives up at the first call that does not return a value.
-/

namespace JavaMachine.Demo

/-- The class: `fact n` is one for `n` up to one, and else `n` times `fact` of `n - 1`. -/
def factorial : ClassSpec where
  name := "Factorial"
  constants := [.method ⟨"Factorial", "fact", "(I)I"⟩]
  methods :=
    [{ name := "fact"
       descriptor := "(I)I"
       flags := 0x0009
       code := ⟨#[0x1a, 0x04, 0xa3, 0x00, 0x05, 0x04, 0xac, 0x1a, 0x1a, 0x04, 0x64,
                  0xb8, 0x00, 0x01, 0x68, 0xac]⟩ }]

/-- The arguments that the program calls the method for. -/
def arguments : List Int32 := [0, 5, 10, 12]

/-- What a call came to, when it is not a value. -/
def describe : Invocation → String
  | .returned none => "Returned(None)"
  | .returned (some v) => s!"Returned(Some({v.text}))"
  | .threw h => s!"Threw(ObjectRef({h.index}))"
  | .halted => "Halted"

/-- The module that an event is attributed to in the program's output. -/
def target : Event → String
  | .raising .. | .raisingOutOfMemory => "coldbrew::runtime"
  | .uncaught _ => "coldbrew::native"
  | _ => "coldbrew::invoke"

/-- The details of an event in the program's output.  Texts that an event has as they are stand in
quotes, and the message of an exception is not a detail but follows the sentence. -/
def details : Event → List String
  | .raising exception message =>
      s!"exception={Text.quote exception}" :: (if message.isEmpty then [] else [message])
  | e => e.details.map fun (k, v) => s!"{k}={v}"

/-- A warning or an error in the program's output. -/
def eventLine (e : Event) : String :=
  let text := String.intercalate " " (e.sentence :: details e)
  s!"{e.level.name} {target e}: {text}"

/-- What the program prints, and how it fails if it does. -/
structure Outcome where
  /-- The printed lines. -/
  lines : List String
  /-- Why it failed. -/
  failure : Option String := none

/-- The lines of the events so far, which are then forgotten. -/
def takeLines : Exec (List String) := do
  let events := (← Exec.world).events.toList
  Exec.modifyWorld fun w => { w with events := #[] }
  return events.map eventLine

/-- Calls the method for arguments in order, up to the first call that gives no value. -/
def callAll (re : Reentry) (cls : LoadedClass) (m : MethodDecl) :
    List Int32 → List String → Exec Outcome
  | [], lines => do
      let executed := (← Exec.thread).executed
      return ⟨lines ++ [s!"INFO coldbrew: done instructions={executed}"], none⟩
  | n :: rest, lines => do
      let result ← Exec.attempt (re.call cls m [.int n])
      let lines := lines ++ (← takeLines)
      match result with
      | .error f => return ⟨lines, some f.message⟩
      | .ok (.returned (some v)) =>
          callAll re cls m rest (lines ++ [s!"INFO coldbrew: fact n={n} result={v.text}"])
      | .ok other =>
          return ⟨lines, some s!"fact({n}) did not return a value: {describe other}"⟩

/-- Sets the machine up and calls the method. -/
def program : Exec Outcome := do
  Bootstrap.load
  let cls ← Bootstrap.define factorial
  match cls.method? "fact" "(I)I" with
  | none => return ⟨[], some "factorial class has no fact method"⟩
  | some m => callAll (Engine.reentry coreNatives 1000000000) cls m arguments []

/-- The program under a configuration. -/
def run (config : Config) : Outcome :=
  let world : World :=
    { heap := { capacity := config.heapCapacity, maxArrayLength := config.maxArrayLength }
      collector := .passive
      threads := 1 }
  match program { config, levels := [.warn, .error] } ⟨world, { id := 0 }⟩ with
  | .ok outcome _ => outcome
  | .error (.fault f) _ => ⟨[], some f.message⟩
  | .error _ _ => ⟨[], some "the program did not come to an end"⟩

/-- The program under the text of a configuration file, the default configuration without one. -/
def runText (text : Option String) : Outcome :=
  match text with
  | none => run {}
  | some text =>
      match Config.parse text with
      | .ok config => run config
      | .error f => ⟨[], some f.message⟩

/-- The outcome when the configuration file cannot be read. -/
def unreadable (path : String) : Outcome := ⟨[], some s!"reading {path}"⟩

end JavaMachine.Demo
