/-!
Paths as text. A path is kept exactly as it was written; joining, the parent and the file name are
computed from its pieces between slashes. Pieces that name nothing, which are the empty ones and `.`,
count only at the front: an empty first piece is the top directory (or the empty path), and a `.`
there is the working directory.
-/

namespace Switchboard

structure Path where
  text : String
deriving DecidableEq, Repr, Inhabited

namespace Path

def pieces (path : Path) : List (List Char) :=
  path.text.toList.splitOn '/'

/-- `tail` seen from `base`: an absolute tail stands alone, any other is put behind a slash. -/
def join (base : Path) (tail : String) : Path :=
  if tail.toList.head? = some '/' then ⟨tail⟩
  else if base.text = "" ∨ base.text.toList.getLast? = some '/' then ⟨base.text ++ tail⟩
  else ⟨base.text ++ "/" ++ tail⟩

/-- Whether a piece behind another one names nothing. -/
def isIdle (piece : List Char) : Bool :=
  piece.isEmpty || piece == ['.']

/-- Reversed pieces without the idle ones at the end of the path. The first piece stays. -/
def settle : List (List Char) → List (List Char)
  | piece :: before :: rest =>
    if isIdle piece then settle (before :: rest) else piece :: before :: rest
  | short => short

def ofReversed : List (List Char) → Path
  | [[]] => ⟨"/"⟩
  | reversed => ⟨String.ofList (['/'].intercalate reversed.reverse)⟩

def fileName? (path : Path) : Option String :=
  match settle path.pieces.reverse with
  | [] => none
  | piece :: _ => if isIdle piece || piece == ['.', '.'] then none else some (String.ofList piece)

/-- A file name cut at its last dot. A name without a dot, or with its only dot in front, has no
extension. -/
def splitExtension (name : String) : String × Option String :=
  let extension := name.toList.reverse.takeWhile (· != '.')
  match name.toList.reverse.drop extension.length with
  | _dot :: c :: stem => (String.ofList (c :: stem).reverse, some (String.ofList extension.reverse))
  | _ => (name, none)

def stem? (path : Path) : Option String :=
  path.fileName?.map fun name => (splitExtension name).1

def extension? (path : Path) : Option String :=
  path.fileName?.bind fun name => (splitExtension name).2

/-- The path without its last piece; the top directory and the empty path have none. -/
def parent? (path : Path) : Option Path :=
  match settle path.pieces.reverse with
  | [] | [[]] => none
  | [_] => some ⟨""⟩
  | _ :: before => some (ofReversed (settle before))

/-- The directory a path lies in; a bare name lies in the working directory. -/
def directory (path : Path) : Path :=
  match path.parent? with
  | none | some ⟨""⟩ => ⟨"."⟩
  | some parent => parent

/-- The paths above and including the one with the given reversed pieces, innermost first, without
the top directory and the empty path. -/
def ascentOfReversed : List (List Char) → List Path
  | [] => []
  | [piece] => if piece.isEmpty then [] else [ofReversed [piece]]
  | piece :: before :: rest =>
    if isIdle piece then ascentOfReversed (before :: rest)
    else ofReversed (piece :: before :: rest) :: ascentOfReversed (before :: rest)

/-- The path and the paths above it, innermost first, without the top directory and the empty
path. -/
def ascent (path : Path) : List Path :=
  ascentOfReversed path.pieces.reverse

end Path

end Switchboard
