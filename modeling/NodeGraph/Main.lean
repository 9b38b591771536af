import NodeGraph.Command.Run

/-!
# The program

Runs the command on the files of the system, and delivers its report.
-/

namespace NodeGraph.Command

/-- The fault behind an error of the system. Its number may be told with either sign. -/
def FileFault.ofError : IO.Error → FileFault
  | .noFileOrDirectory .. => .noSuchFile
  | .inappropriateType _ code _ =>
    if code = 20 ∨ code + 20 = 0 then .notDirectory else .isDirectory
  | .invalidArgument _ code details =>
    if code = 36 ∨ code + 36 = 0 then .nameTooLong
    else .other (details ++ " (os error " ++ toString code.toNat ++ ")")
  | .resourceExhausted _ code details =>
    if code = 28 ∨ code + 28 = 0 then .noSpace
    else .other (details ++ " (os error " ++ toString code.toNat ++ ")")
  | .permissionDenied _ code details =>
    .other (details ++ " (os error " ++ toString code.toNat ++ ")")
  | error => .other (toString error)

/-- Read a file as text. -/
def readDocument (path : String) : IO (Except FileFault String) := do
  match ← (IO.FS.readBinFile path).toBaseIO with
  | .error error => return .error (.ofError error)
  | .ok bytes =>
    match String.fromUTF8? bytes with
    | some text => return .ok text
    | none => return .error .notText

/-- Store a text in a file. -/
def storeText (path text : String) : IO (Option FileFault) := do
  match ← (IO.FS.writeFile path text).toBaseIO with
  | .ok () => return none
  | .error error => return some (.ofError error)

/-- Deliver a report, and give the code to end with. -/
def Report.deliver (report : Report) : IO UInt32 := do
  IO.eprint report.stderr
  IO.print report.stdout
  return UInt32.ofNat report.code

end NodeGraph.Command

open NodeGraph.Command in
/-- Run the command. -/
def main (arguments : List String) : IO UInt32 := do
  (← run ⟨readDocument, storeText⟩ arguments).deliver
