import SchemaMigration.CommandLine

/-!
# The program

Prints what the command line answers.
-/

def main (args : List String) : IO UInt32 := do
  let environment ← IO.getEnv "DATABASE_URL"
  let answer := SchemaMigration.CommandLine.answer environment args
  (← IO.getStdout).putStr answer.output
  (← IO.getStderr).putStr answer.errors
  return answer.exitCode.toUInt32
