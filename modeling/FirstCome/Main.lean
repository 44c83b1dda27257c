import FirstCome.CommandLine

/-!
The program: reads its surroundings, runs the invocation, writes the answer.
-/
namespace FirstCome

def readFault : IO.Error → ReadFault
  | .noFileOrDirectory .. | .noSuchThing .. => .notFound
  | .inappropriateType .. => .isDirectory
  | e => .other (toString e)

def attempt (read : IO ByteArray) : IO (Except ReadFault ByteArray) := do
  match ← read.toBaseIO with
  | .ok bytes => return .ok bytes
  | .error e => return .error (readFault e)

def readVariables : IO (String → Option String) := do
  let names := [Options.outputVariable, Options.traceJsonVariable, Options.showTimelineVariable]
  let values ← names.mapM fun name => do return (name, ← IO.getEnv name)
  return fun name => (values.lookup name).join

/-- Only what the options call for is read: one file, or standard input, or nothing. -/
def gather (args : List String) : IO Invocation := do
  let env ← readVariables
  let bare : Invocation := { args, env, input := .error .notFound, file := fun _ => .error .notFound }
  match bare.options with
  | .error _ => return bare
  | .ok { input := .none, .. } =>
    let input ← attempt do (← IO.getStdin).readBinToEnd
    return { bare with input }
  | .ok { input := some path, .. } =>
    let bytes ← attempt (IO.FS.readBinFile path)
    return { bare with file := fun _ => bytes }

end FirstCome

def main (args : List String) : IO UInt32 := do
  let invocation ← FirstCome.gather args
  match invocation.run with
  | .ok text =>
    IO.print text
    return 0
  | .error f =>
    IO.eprintln f.message
    return 1
