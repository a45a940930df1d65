/-!
# Starter files

The configuration and the allowlist that a new project begins with, with comments on what may be
set.
-/
namespace TokenLint.Command.Starter

def configName : String := "design-lint.config.json"

def allowlistName : String := ".design-lint-allowlist.json"

/-- Lines, each with its line feed. -/
def ofLines (ls : List String) : String := String.join (ls.map (· ++ "\n"))

def config : String :=
  ofLines
    ["\x7b",
     "  // design-lint configuration (JSON with comments)",
     "",
     "  // Report leading-[..] and tracking-[..] as warnings outside stories.",
     "  // Set to false to make them errors like every other arbitrary value.",
     "  \"warnLineHeightAndTracking\": true,",
     "",
     "  // Call names whose string arguments are scanned as class lists.",
     "  \"classMergeHelpers\": [\"clsx\", \"classnames\", \"cn\"]",
     "",
     "  // Used when no --allowlist flag or project allowlist file is found.",
     "  // \"allowlistPath\": \".design-lint-allowlist.json\"",
     "\x7d"]

def allowlist : String :=
  ofLines
    ["\x7b",
     "  // Files exempt from both rules (globs, relative to the project root).",
     "  \"paths\": [",
     "    \"app/globals.css\",",
     "    \"**/*.stories.tsx\"",
     "  ],",
     "",
     "  // Class names exempt from the arbitrary-value rule (regex sources).",
     "  \"classPatterns\": [",
     "    // \"^translate-[xy]-\\\\[-50%\\\\]$\"",
     "  ]",
     "\x7d"]

/-- The files by name. -/
def files : List (String × String) := [(configName, config), (allowlistName, allowlist)]

end TokenLint.Command.Starter
