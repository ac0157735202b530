/-!
# Names in the host

A standalone program becomes a subcommand of a host program. The naming says what the host and the
subcommand are called, what the program calls itself, and what its functions are called once they
are part of the host.
-/

namespace Vendoring

/-- The names used to embed a standalone program. `hostCommand` is the host program,
`standaloneProgram` the name in the program's own help text; `entryFunction` and `helpFunction`
replace its entry point and its help function; the adapter is a function in a namespace of its own
that puts `placeholder` in front of its arguments. `label` is short for where the program comes
from, and `description` is one line about it. -/
structure Naming where
  hostCommand : String := "ksud"
  subcommand : String := "hymo"
  standaloneProgram : String := "hymod"
  entryFunction : String := "hymo_main"
  helpFunction : String := "print_hymo_help"
  adapterFunction : String := "cmd_hymo"
  adapterNamespace : String := "hymo"
  placeholder : String := "hymo"
  label : String := "hymo"
  description : String := "HymoFS module management CLI"
deriving DecidableEq

namespace Naming

instance : Inhabited Naming := ⟨{}⟩

/-- How the embedded program is called: the host, a blank and the subcommand. -/
def invocation (n : Naming) : String :=
  n.hostCommand ++ " " ++ n.subcommand

/-- The argument list that the adapter hands to the entry function. -/
def adapterArguments (n : Naming) (arguments : List String) : List String :=
  n.placeholder :: arguments

end Naming

end Vendoring
