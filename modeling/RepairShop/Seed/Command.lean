import RepairShop.Seed

/-!
The seed command. It seeds one branch of a fresh database and prints what it did:
`--branch NAME` names the branch (default `Main`), `--show-grants` prints one line per grant
row after the seed, and `--dry-run` rolls the seed back and says so. Options may be
abbreviated to any unambiguous prefix and a value may follow `=`; unknown words are refused
together at the end, after `-h`/`--help` has had its chance to print the help.
-/

namespace RepairShop.Seed

/-- What the seed command was asked to do. -/
structure Options where
  branch : String := "Main"
  showGrants : Bool := false
  dryRun : Bool := false

/-- How a command line reads: a run, a request for help, or a refusal with its reason. -/
inductive Invocation where
  | run (options : Options)
  | help
  | refuse (reason : String)

/-- The name the command goes by in its own messages. -/
def commandName : String := "seed-workflow"

/-- The one-line usage. -/
def usageLine : String :=
  "usage: " ++ commandName ++ " [-h] [--branch BRANCH] [--show-grants] [--dry-run]"

/-- The help text. -/
def helpText : List String :=
  [usageLine, "", "Seed repair order statuses, transitions, roles & status permissions", "",
   "options:",
   "  -h, --help       show this help message and exit",
   "  --branch BRANCH  Branch name to seed (created if missing)",
   "  --show-grants    Print role/status capability counts after seeding",
   "  --dry-run        Rollback after operations (no commit)", "",
   "Examples:", "  seed normally: " ++ commandName, "  dry run: " ++ commandName ++ " --dry-run"]

/-- The long options, in the order they are declared. -/
def longOptions : List String := ["--help", "--branch", "--show-grants", "--dry-run"]

/-- A word that reads as an option rather than a value: a dash and more, not a number. -/
def looksLikeOption (w : String) : Bool :=
  match w.toList with
  | '-' :: c :: _ => !(c.isDigit || c == '.')
  | _ => false

/-- The option a word names, with the value given after `=`; a prefix names the one long
option it starts, and a prefix of several is ambiguous. -/
def optionOf (w : String) : Except String (Option (String × Option String)) :=
  if w == "-h" then .ok (some ("--help", none))
  else if !w.startsWith "--" || w.length < 3 then .ok none
  else
    let (name, value) := match w.splitOn "=" with
      | [n] => (n, none)
      | n :: rest => (n, some ("=".intercalate rest))
      | [] => (w, none)
    if longOptions.contains name then .ok (some (name, value))
    else match longOptions.filter (·.startsWith name) with
      | [full] => .ok (some (full, value))
      | [] => .ok none
      | many => .error ("ambiguous option: " ++ name ++ " could match " ++ ", ".intercalate many)

/-- Reads the words of a command line; unknown words are kept to be refused at the end. -/
def readWords : List String → Options → List String → Invocation
  | [], o, [] => .run o
  | [], _, extra => .refuse ("unrecognized arguments: " ++ " ".intercalate extra.reverse)
  | w :: rest, o, extra =>
    match optionOf w with
    | .error reason => .refuse reason
    | .ok none => readWords rest o (w :: extra)
    | .ok (some (name, given)) =>
      if name == "--help" then .help
      else if name == "--branch" then
        match given, _hr : rest with
        | some v, _ => readWords rest { o with branch := v } extra
        | none, v :: more =>
          if looksLikeOption v then .refuse "argument --branch: expected one argument"
          else readWords more { o with branch := v } extra
        | none, [] => .refuse "argument --branch: expected one argument"
      else match given with
        | some v => .refuse ("argument " ++ name ++ ": ignored explicit argument " ++ "'" ++ v ++ "'")
        | none =>
          if name == "--show-grants" then readWords rest { o with showGrants := true } extra
          else readWords rest { o with dryRun := true } extra
termination_by ws => ws.length
decreasing_by all_goals (subst_vars; simp only [List.length_cons]; omega)

/-- Reads a command line. -/
def readCommand (args : List String) : Invocation := readWords args {} []

/-- The counters as the command prints them. -/
def Counters.shown (c : Counters) : String :=
  "\x7b'permissions': " ++ toString c.permissions ++ ", 'roles': " ++ toString c.roles ++
    ", 'transitions': " ++ toString c.transitions ++ ", 'grants': " ++ toString c.grants ++
    ", 'branch_id': " ++ toString c.branchId ++ "\x7d"

/-- The lines a run prints, seeding a fresh database: the seed notices, the outcome, and the
grant summary when asked for and kept. A fresh database has no branch and no links, so the
seed cannot be refused there; the empty report of a refusal is never printed. -/
def report (o : Options) : List String :=
  let run : Txn (Counters × List String × List String) := do
    let (c, notes) ← seedWorkflow (.str o.branch)
    let summary ← if o.showGrants && !o.dryRun then grantSummary c.branchId else pure []
    pure (c, notes, summary)
  match run.run { db := {}, kv := {} } with
  | .ok (c, notes, summary) _ =>
    if o.dryRun then notes ++ ["[DRY-RUN] (rolled back) " ++ c.shown]
    else notes ++ ["[DONE] " ++ c.shown] ++ summary
  | .error _ _ => []

end RepairShop.Seed
