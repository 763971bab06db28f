import Flowsheet.Web.Message

/-! Paths of the web interface. The pages and their forms have short paths, and the editor's
documents are under their own. -/

namespace Flowsheet.Web

inductive Route where
  | overview
  | newProcess
  | control (process : String)
  | options
  | processes
  | workflow (process : String)
  | edges (process : String)
  | session (process : String)
  | start (process : String)
  | step (process : String)
  | stop (process : String)
deriving DecidableEq, Repr

/-- The segments between the slashes of a path. -/
def segments : List Char → List (List Char)
  | [] => [[]]
  | c :: rest =>
    if c == '/' then [] :: segments rest
    else match segments rest with
      | first :: more => (c :: first) :: more
      | [] => [[c]]

/-- One line break at the end of a path does not count. -/
def withoutBreak (path : List Char) : List Char :=
  if path.getLast? = some '\n' then path.dropLast else path

/-- The path that may have been meant: without the slashes at its end, or with one if it has none. -/
def meantPath (path : String) : String :=
  if path.toList.getLast? = some '/' then
    String.ofList (path.toList.reverse.dropWhile (· == '/')).reverse
  else path ++ "/"

namespace Route

/-- What can be asked of one process. -/
def ofAction? (process : String) : List String → Option Route
  | ["workflow"] => some (.workflow process)
  | ["edges"] => some (.edges process)
  | ["simulation"] => some (.session process)
  | ["simulation", "start"] => some (.start process)
  | ["simulation", "step"] => some (.step process)
  | ["simulation", "stop"] => some (.stop process)
  | _ => none

def ofPath? (path : String) : Option Route :=
  match (segments (withoutBreak path.toList)).map String.ofList with
  | ["", ""] => some .overview
  | ["", "processes"] => some .newProcess
  | ["", "processes", process, "simulation"] =>
    if process = "" then none else some (.control process)
  | ["", "simulation", "options"] => some .options
  | ["", "api", "processes"] => some .processes
  | "" :: "api" :: "processes" :: process :: action =>
    if process = "" then none else ofAction? process action
  | _ => none

end Route

/-- The path of the page about a process. -/
def pageOf (process : String) : String :=
  "/?" ++ formLine [("process", process)]

end Flowsheet.Web
