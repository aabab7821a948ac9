import LogOrder.CommandLine.Arguments

/-!
# Messages of the command line

What is printed when a command line starts no run. The name and version of the program are its own;
help, the report of what is refused, and the scripts that teach a shell to complete the options are
made by the library that reads command lines, in words that the program never looks at.
-/

namespace LogOrder.CommandLine

/-- The name and version of the program. -/
def versionLine : String := "logsort 2026.10.0\n"

/-- The texts of the library that reads command lines. -/
structure Texts where
  /-- Help, or the report of what is refused. -/
  refusal : Refusal → String
  /-- A script that teaches a shell to complete the options. -/
  script : Shell → String
  /-- There is a script for every shell. -/
  script_ne : ∀ shell, script shell ≠ ""

namespace Texts

/-- What is printed for a command line that starts no run. -/
def notice (t : Texts) : Refusal → String
  | .displayVersion => versionLine
  | why => t.refusal why

/-- Texts that say no more than they have to: a script that is a comment completes nothing. -/
def bare : Texts where
  refusal why := reprStr why ++ "\n"
  script shell := "# " ++ shell.name ++ "\n"
  script_ne shell := by cases shell <;> decide

end Texts

end LogOrder.CommandLine
