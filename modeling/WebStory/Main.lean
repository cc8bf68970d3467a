import WebStory.CommandLine
/-
  The program itself: the command line on the file system.
-/

open WebStory.CommandLine

/-- The files of the file system. -/
def diskAccess : FileAccess IO where
  read path := do
    try
      return some (← IO.FS.readFile path)
    catch _ => return none
  write path content := do
    try
      IO.FS.writeFile path content
      return true
    catch _ => return false

def usageText : String := "usage: [--output FILE] [--config FILE] [--pretty] [--verbose] INPUT"

def main (arguments : List String) : IO UInt32 := do
  match ← program diskAccess arguments with
  | .usage =>
    (← IO.getStderr).putStrLn usageText
    return 2
  | .failed failure =>
    (← IO.getStderr).putStrLn ("Error: " ++ failure.message)
    return 1
  | .done stdout =>
    (← IO.getStdout).putStr stdout
    return 0
