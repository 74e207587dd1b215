import Flowchart.Command.Options

/-!
# Usage

The texts that explain the command.
-/

namespace Flowchart.Command

/-- The name of the command. -/
def commandName : String := "flow-mermaid"

/-- How the command is called. -/
def usage : String :=
  "usage: flow-mermaid [-h] [--out OUT] [--title TITLE]\n"
    ++ "                    [--direction \x7bTD,TB,BT,LR,RL\x7d] [--layout LAYOUT]\n"
    ++ "                    [--styles STYLES] [--no-legend] [--verbose] [--strict]\n"
    ++ "                    input\n"

/-- What the arguments mean. -/
def help : String :=
  usage ++ "\n"
    ++ "Convert a workflow definition (actions + runAfter) into a Mermaid flowchart.\n"
    ++ "\n"
    ++ "positional arguments:\n"
    ++ "  input                 Flow definition file (.json, .yaml/.yml), or '-' to\n"
    ++ "                        read JSON from stdin.\n"
    ++ "\n"
    ++ "options:\n"
    ++ "  -h, --help            show this help message and exit\n"
    ++ "  --out OUT             Output path. A .md suffix writes a titled Markdown\n"
    ++ "                        page with a Mermaid block; anything else writes raw\n"
    ++ "                        Mermaid. Default: stdout.\n"
    ++ "  --title TITLE         Diagram title\n"
    ++ "  --direction \x7bTD,TB,BT,LR,RL\x7d\n"
    ++ "                        Flowchart direction\n"
    ++ "  --layout LAYOUT       Mermaid layout engine written to the front matter\n"
    ++ "                        ('none' omits it).\n"
    ++ "  --styles STYLES       YAML file with per-kind style overrides (fill, stroke,\n"
    ++ "                        shape, class_name).\n"
    ++ "  --no-legend           Do not append class definitions for unused well-known\n"
    ++ "                        action kinds.\n"
    ++ "  --verbose             Also print informational diagnostics (connections,\n"
    ++ "                        subgraphs).\n"
    ++ "  --strict              Exit with status 2 if any warning was reported (output\n"
    ++ "                        is still written).\n"

/-- What is said about arguments that cannot be read. -/
def usageMessage (e : UsageError) : String :=
  usage ++ commandName ++ ": error: " ++ e.message ++ "\n"

end Flowchart.Command
