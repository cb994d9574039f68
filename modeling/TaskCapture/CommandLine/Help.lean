import TaskCapture.Text.CharRange

/-!
The help text of the program.
-/

namespace TaskCapture

def version : String := "0.3.2"

/-- A line of the help text: `name` stands for the program. -/
inductive HelpLine where
  | plain (text : String)
  /-- A use of the program, with what follows its name. -/
  | usage (rest : String)

def helpLines : List HelpLine :=
  [.plain ("Quickcap v" ++ version ++ " - quick-capture text interpreter and recurrence engine"),
   .plain "",
   .plain "USAGE:",
   .usage " parse <text...> [--at <date>] [--json]",
   .usage " next <date> <rule-json> [--count <n>]",
   .usage " check <text...>",
   .usage " --help",
   .plain "",
   .plain "OPTIONS:",
   .plain "    -r, --root <path>     Use a different directory for config.",
   .plain "    -v, --verbose         Log debug output to stderr.",
   .plain "    --at <date>           Reference instant, YYYY-MM-DD[THH:MM] (default: now).",
   .plain "    --json                Print the parsed task as JSON.",
   .plain "    -n, --count <n>       Number of upcoming dates to print.",
   .plain "    -h, --help            Show this help message.",
   .plain "",
   .plain "CAPTURE SYNTAX:",
   .plain "    !urgent !high !medium !low    Priority by name",
   .plain "    p1 p2 p3 p4                   Priority shorthand (p1 = urgent)",
   .plain "    !!! / !!                      Urgent / high",
   .plain "    #tag                          Category",
   .plain "    @tag                          Context",
   .plain "    tomorrow at 2pm, next monday, in 3 days, 2025-01-16, mar 5",
   .plain "                                  Due date and optional time",
   .plain "",
   .plain "EXAMPLES:",
   .usage " parse \"Call dentist tomorrow at 2pm !high #health @phone\"",
   .usage " next 2025-01-31 '\x7b\"frequency\":\"monthly\"\x7d' --count 3",
   .usage " next 2025-03-05 '\x7b\"frequency\":\"weekly\",\"daysOfWeek\":[1,3,5]\x7d'"]

def HelpLine.text (name : Text) : HelpLine → Text
  | plain t => t.toList
  | usage rest => "    ".toList ++ name ++ rest.toList

def helpText (name : Text) : Text := List.intercalate ['\n'] (helpLines.map (·.text name))

end TaskCapture
