/-
  Fleet.Worker.Path — paths as texts: a name below a directory (`join`) and the
  directory that a file's name stands in (`parent?`).
-/

namespace Fleet.Path

/-- `name` below the directory `dir`. The empty directory is the current one. -/
def join (dir name : String) : String :=
  if dir.isEmpty || dir.endsWith '/' then dir ++ name else dir ++ "/" ++ name

/-- What names a place: the pieces between slashes, without empty ones and without
    the dots that name the place itself (a leading one is kept). -/
def pieces (path : String) : List String :=
  match path.splitToList (· == '/') with
  | first :: rest =>
    (if first.isEmpty then [] else [first]) ++ rest.filter fun piece => !piece.isEmpty && piece != "."
  | [] => []

def isAbsolute (path : String) : Bool := path.startsWith "/"

/-- The directory that a path's last piece stands in; the empty text is the current
    directory. The root and the empty path stand in none. -/
def parent? (path : String) : Option String :=
  match (pieces path).dropLast, (pieces path).isEmpty with
  | _, true => none
  | dirs, false => some ((if isAbsolute path then "/" else "") ++ "/".intercalate dirs)

end Fleet.Path
