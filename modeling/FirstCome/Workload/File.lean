import FirstCome.Workload.Document
import FirstCome.Workload.Text

/-!
Workloads from files: the extension of the name tells the form of the contents.
-/
namespace FirstCome

inductive ReadFault where
  | notFound
  | isDirectory
  | other (text : String)
deriving DecidableEq

def ReadFault.message : ReadFault → String
  | notFound => "No such file or directory (os error 2)"
  | isDirectory => "Is a directory (os error 21)"
  | other text => text

namespace Path

/-- The parts of a path between its slashes, empty ones and single dots aside. -/
def parts (path : List Char) : List (List Char) :=
  (path.splitOn '/').filter fun p => !(p.isEmpty || p == ['.'])

/-- The last part, unless it leads upwards. -/
def fileName? (path : List Char) : Option (List Char) :=
  (parts path).getLast?.filter (· ≠ ['.', '.'])

/-- What follows the last dot of a file name, if anything comes before that dot. -/
def extension? (path : List Char) : Option (List Char) := do
  let reversed := (← fileName? path).reverse
  match reversed.dropWhile (· ≠ '.') with
  | _ :: _ :: _ => some (reversed.takeWhile (· ≠ '.')).reverse
  | _ => none

end Path

namespace Workload

def isJsonPath (path : String) : Bool :=
  (Path.extension? path.toList).any fun e => e.map Char.toLower == ['j', 's', 'o', 'n']

def utf8Message : String := "stream did not contain valid UTF-8"

def readUtf8 (bytes : ByteArray) : Except ReadFault String :=
  match String.fromUTF8? bytes with
  | some text => .ok text
  | none => .error (.other utf8Message)

/-- A checked workload from the contents of a file; a fault of reading it bears its name. -/
def ofFile (path : String) (contents : Except ReadFault ByteArray) : Except Fault Workload := do
  let text ← (contents.bind readUtf8).mapError fun f => .io (path ++ ": " ++ f.message)
  if isJsonPath path then ofJson text else ofText text

def ofInput (contents : Except ReadFault ByteArray) : Except Fault Workload := do
  let text ← (contents.bind readUtf8).mapError fun f => .io f.message
  ofText text

end Workload
end FirstCome
