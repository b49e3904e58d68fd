import RepairShop.Seed.Command

open RepairShop.Seed

/-- Runs the seed command: prints its report, its help, or its refusal (exit status 2). -/
def main (args : List String) : IO UInt32 := do
  match readCommand args with
  | .help =>
    for line in helpText do IO.println line
    return 0
  | .refuse reason =>
    let err ← IO.getStderr
    err.putStrLn usageLine
    err.putStrLn (commandName ++ ": error: " ++ reason)
    return 2
  | .run o =>
    for line in report o do IO.println line
    return 0
