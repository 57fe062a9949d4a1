import SqlScript.Command.Run
import Std.Time

/-!
The command itself. It gathers what a run depends on, and carries out what the run answers.
-/

namespace SqlScript.Command

def digits (width n : Nat) : String :=
  let s := toString n
  Text.rule '0' (width - s.length) ++ s

def now : IO String := do
  let t ← Std.Time.PlainDateTime.now
  return digits 4 t.year.toInt.toNat ++ "-" ++ digits 2 t.month.toInt.toNat ++ "-" ++
    digits 2 t.day.toInt.toNat ++ " " ++ digits 2 t.hour.toInt.toNat ++ ":" ++
    digits 2 t.minute.toInt.toNat ++ ":" ++ digits 2 t.second.toInt.toNat ++ "," ++
    digits 3 (t.nanosecond.toInt.toNat / 1000000)

def bytesOf (b : ByteArray) : Bytes := b.toList.map UInt8.toNat

def readFile (path : String) : IO (Except PathFault Bytes) := do
  try
    return .ok (bytesOf (← IO.FS.readBinFile path))
  catch e =>
    match e with
    | .inappropriateType .. => return .error .folder
    | _ => return .error .missing

/-- Writes a file, in a new folder if need be. -/
def writeFile (path text : String) : IO Unit := do
  let folder := folderPart path.toList
  unless folder.isEmpty do
    IO.FS.createDirAll (String.ofList folder)
  IO.FS.writeFile path text

def settingVariables : List String :=
  [Settings.logLevelVariable, Settings.maxDepthVariable, Settings.treeFormatVariable]

end SqlScript.Command

open SqlScript SqlScript.Command

def main (argv : List String) : IO UInt32 := do
  let values ← settingVariables.mapM fun name => return (name, ← IO.getEnv name)
  let input ← match inputPath? argv with
    | some path => readFile path
    | none => pure (.error .missing)
  let standardInput ←
    if argv.contains "-" then bytesOf <$> (← IO.getStdin).readBinToEnd else pure []
  let request : Request :=
    ⟨argv, fun name => (values.lookup name).join, standardInput, fun _ => input,
      fun file => .ok (some file), false, ← now⟩
  match run request with
  | .error failure =>
    IO.eprintln failure.message
    return 1
  | .ok outcome =>
    IO.print outcome.stdout
    IO.eprint outcome.stderr
    for (file, text) in outcome.written do
      writeFile file text
    return outcome.exit.toUInt32
