/-
  ParseBench.Files.Path

  Paths as texts: joining two of them, the names along a path and the paths
  above it.
-/

import ParseBench.Text.Split

namespace ParseBench.Path

/-- `right` seen from the directory `left`. An absolute path stays as it is, and a slash
    is added unless `left` is empty or ends in one. -/
def join (left right : String) : String :=
  if Text.startsWith right "/" then right
  else if left.isEmpty || left.toList.getLast? == some '/' then left ++ right
  else left ++ "/" ++ right

/-- Does the path begin at the root of the machine? -/
def isAbsolute (path : String) : Bool :=
  Text.startsWith path "/"

/-- Does the path end in a slash, so that only a directory can be meant? -/
def endsInSlash (path : String) : Bool :=
  path.toList.getLast? == some '/'

/-- The names along a path. Neighbouring slashes count as one. -/
def names (path : String) : List String :=
  (Text.splitOn '/' path).filter (!·.isEmpty)

/-- The names along a path without those that stay where they are. Only at the beginning of a
    relative path is one of these a part of it. -/
def components (path : String) : List String :=
  match isAbsolute path, names path with
  | false, first :: rest => first :: rest.filter (· ≠ ".")
  | _, names => names.filter (· ≠ ".")

/-- The paths above a path, the nearest first. Those above an absolute path are absolute, and the
    last of them is the root. -/
def parents (path : String) : List String :=
  let c := components path
  let lead := if isAbsolute path then "/" else ""
  ((List.range c.length).reverse.map fun k => lead ++ Text.join "/" (c.take k)).filter (!·.isEmpty)

end ParseBench.Path
