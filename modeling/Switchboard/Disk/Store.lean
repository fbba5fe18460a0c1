import Switchboard.Disk.Script
import Switchboard.Text.Hexadecimal

/-!
Stores: a file system as a value. A store knows what stands at each location, a location being the
names from a node up to the top directory, and it has a home, the directory that relative paths start
from. Locations that are not listed are empty, and the top directory is always there.

Paths are followed as on Linux: idle pieces stay where they are but ask for a directory, `..` goes
up, a name is looked up in a directory, and a link is replaced by its target, at most forty times on
one path. The last name of a path that is created, replaced or removed is not followed.
-/

namespace Switchboard.Disk

-- More than one comparison of byte arrays may be in reach of whoever imports this.
instance decidableEqBytes : DecidableEq ByteArray := ByteArray.instDecidableEq

/-- What a file holds. A special file, a socket or a device without a driver, holds nothing, and
nobody can open it. -/
inductive Content
  | regular (bytes : ByteArray)
  | special
deriving DecidableEq

/-- The number of bytes that a file holds. -/
def Content.size : Content → Nat
  | regular bytes => bytes.size
  | special => 0

inductive Node
  | file (content : Content)
  | directory
  | link (target : String)
deriving DecidableEq

def Node.kind : Node → Kind
  | file (.regular _) => .file
  | file .special => .special
  | directory => .directory
  | link _ => .link

/-- The names from a node up to the top directory, which has none. -/
abbrev Location := List String

/-- The nodes of a file system, and the directory relative paths start from. -/
structure Store where
  home : Location
  nodes : List (Location × Node)
deriving DecidableEq

namespace Store

/-! ### Nodes -/

def node? (store : Store) : Location → Option Node
  | [] => some .directory
  | location => store.nodes.lookup location

def erase (store : Store) (location : Location) : Store :=
  { store with nodes := store.nodes.filter (·.1 != location) }

def put (store : Store) (location : Location) (node : Node) : Store :=
  { store with nodes := (location, node) :: (store.erase location).nodes }

@[simp] theorem node?_top (store : Store) : store.node? [] = some .directory := rfl

theorem node?_put_self {store : Store} {location : Location} (h : location ≠ []) (node : Node) :
    (store.put location node).node? location = some node := by
  cases location with
  | nil => exact absurd rfl h
  | cons name above => simp [node?, put]

private theorem lookup_filter_ne {location other : Location} (h : other ≠ location)
    (nodes : List (Location × Node)) :
    (nodes.filter (·.1 != location)).lookup other = nodes.lookup other := by
  induction nodes with
  | nil => rfl
  | cons entry rest ih =>
    obtain ⟨found, node⟩ := entry
    by_cases hfound : found = location
    · subst hfound
      have hother : (other == found) = false := by simp [h]
      simp [List.lookup_cons, hother, ih]
    · simp [hfound, List.lookup_cons, ih]

/-- Erasing a location leaves every other one as it was. -/
theorem node?_erase_of_ne {location other : Location} (h : other ≠ location) (store : Store) :
    (store.erase location).node? other = store.node? other := by
  cases other with
  | nil => rfl
  | cons name above => exact lookup_filter_ne h store.nodes

/-- Putting a node at a location leaves every other one as it was. -/
theorem node?_put_of_ne {location other : Location} (h : other ≠ location) (store : Store)
    (node : Node) : (store.put location node).node? other = store.node? other := by
  cases other with
  | nil => rfl
  | cons name above =>
    have hother : (name :: above == location) = false := by simp [h]
    simp only [node?, put, List.lookup_cons, hother]
    exact lookup_filter_ne h store.nodes

theorem node?_erase_self {store : Store} {location : Location} (h : location ≠ []) :
    (store.erase location).node? location = none := by
  cases location with
  | nil => exact absurd rfl h
  | cons name above =>
    simp only [node?, erase, List.lookup_eq_none_iff, List.mem_filter, bne_iff_ne]
    exact fun _ hmem heq => hmem.2 heq.symm

def children (store : Store) (location : Location) : List (String × Node) :=
  store.nodes.filterMap fun
    | (name :: above, node) => if above = location then some (name, node) else none
    | ([], _) => none

/-! ### Following paths -/

def nameLimit : Nat := 255

def linkLimit : Nat := 40

def piecesOf (text : String) : List String :=
  (text.toList.splitOn '/').map String.ofList

def start (base : Location) (text : String) : Location :=
  if text.toList.head? = some '/' then [] else base

/-- How far a path can be followed without a link. -/
inductive Reach
  | node (location : Location)
  /-- Only the last name of the path is not in use. -/
  | unused (directory : Location) (name : String)
  | link (directory : Location) (target : String) (rest : List String)

/-- Follows pieces up to the first link. -/
def advance (store : Store) (location : Location) : List String → Except Cause Reach
  | [] => .ok (.node location)
  | piece :: rest =>
    if store.node? location ≠ some .directory then .error .notDirectory
    else if piece = "" ∨ piece = "." then advance store location rest
    else if piece = ".." then advance store location.tail rest
    else if nameLimit < piece.utf8ByteSize then .error .nameTooLong
    else
      match store.node? (piece :: location) with
      | none => if rest.isEmpty then .ok (.unused location piece) else .error .missing
      | some (.link target) => .ok (.link location target rest)
      | some _ => advance store (piece :: location) rest

/-- Follows pieces, with a number of legs between links that is left. -/
def follow (store : Store) : Nat → Location → List String → Except Cause Reach
  | 0, _, _ => .error .tooManyLinks
  | legs + 1, location, pieces =>
    match store.advance location pieces with
    | .ok (.link directory target rest) =>
      follow store legs (start directory target) (piecesOf target ++ rest)
    | reached => reached

/-- Where a path leads, through all links. -/
def reach (store : Store) (path : Path) : Except Cause Reach := do
  checkPath path
  store.follow (linkLimit + 1) (start store.home path.text) (piecesOf path.text)

/-- The location a path leads to, through all links. -/
def locate (store : Store) (path : Path) : Except Cause Location := do
  match ← store.reach path with
  | .node location => .ok location
  | .unused _ _ | .link _ _ _ => .error .missing

/-- Reversed pieces without the empty ones at the end of the path. -/
def trimPieces (reversed : List String) : List String :=
  reversed.dropWhile (·.isEmpty)

/-- The directory that holds the last name of a path, and that name, which is not followed. -/
def locateEntry (store : Store) (path : Path) : Except Cause (Location × String) := do
  checkPath path
  match trimPieces (piecesOf path.text).reverse with
  | [] => .error .taken
  | name :: above =>
    match ← store.follow (linkLimit + 1) (start store.home path.text) (above.reverse ++ ["."]) with
    | .node directory =>
      if name = "." ∨ name = ".." then .error .taken
      else if nameLimit < name.utf8ByteSize then .error .nameTooLong
      else .ok (directory, name)
    | .unused _ _ | .link _ _ _ => .error .missing

/-! ### Answering requests -/

def inspect (store : Store) (path : Path) : Except Cause Kind := do
  match store.node? (← store.locate path) with
  | some node => .ok node.kind
  | none => .error .missing

def read (store : Store) (path : Path) : Except Cause ByteArray := do
  match store.node? (← store.locate path) with
  | some (.file (.regular bytes)) => .ok bytes
  | some (.file .special) => .error .noDevice
  | some .directory => .error .isDirectory
  | some (.link _) | none => .error .missing

def list (store : Store) (path : Path) : Except Cause (List (String × Kind)) := do
  let location ← store.locate path
  match store.node? location with
  | some .directory => .ok ((store.children location).map fun (name, node) => (name, node.kind))
  | some _ => .error .notDirectory
  | none => .error .missing

def makeDirectory (store : Store) (path : Path) : Except Cause Store := do
  let (directory, name) ← store.locateEntry path
  match store.node? (name :: directory) with
  | some _ => .error .taken
  | none => .ok (store.put (name :: directory) .directory)

/-- The names of temporary files all have six digits, so that none is longer than another. -/
def temporaryName (number : Nat) : String :=
  ".switchboard-" ++ Text.hex (0x100000 + number)

def temporaryLimit : Nat := 0xf00000

/-- The first name of a temporary file that is not in a list. -/
def freshName? (taken : List String) : Option String :=
  ((List.range (min (taken.length + 1) temporaryLimit)).map temporaryName).find?
    (!taken.contains ·)

def createTemporary (store : Store) (directory : Path) : Except Cause (Path × Store) := do
  let location ← store.locate directory
  match store.node? location with
  | some .directory =>
    match freshName? ((store.children location).map (·.1)) with
    | none => .error (.other "too many temporary files exist")
    | some name =>
      let path := directory.join name
      -- The path of the file can be too long although that of the directory is not.
      let (above, name) ← store.locateEntry path
      .ok (path, store.put (name :: above) (.file (.regular ByteArray.empty)))
  | some _ => .error .notDirectory
  | none => .error .missing

def write (store : Store) (path : Path) (bytes : ByteArray) : Except Cause Store := do
  let location ← store.locate path
  match store.node? location with
  | some (.file (.regular _)) => .ok (store.put location (.file (.regular bytes)))
  | some (.file .special) => .error .noDevice
  | some .directory => .error .isDirectory
  | some (.link _) | none => .error .missing

def rename (store : Store) (source target : Path) : Except Cause Store := do
  let (sourceDirectory, sourceName) ← store.locateEntry source
  let (directory, name) ← store.locateEntry target
  match store.node? (sourceName :: sourceDirectory), store.node? (name :: directory) with
  | none, _ => .error .missing
  | some .directory, _ | _, some .directory => .error .isDirectory
  | some node, _ => .ok ((store.erase (sourceName :: sourceDirectory)).put (name :: directory) node)

def remove (store : Store) (path : Path) : Except Cause Store := do
  let (directory, name) ← store.locateEntry path
  match store.node? (name :: directory) with
  | none => .error .missing
  | some .directory => .error .isDirectory
  | some _ => .ok (store.erase (name :: directory))

/-- A change that was granted or refused, with the store it leaves behind. -/
def changed (store : Store) : Except Cause Store → Except Cause Unit × Store
  | .ok store => (.ok (), store)
  | .error cause => (.error cause, store)

/-- Answers a request. A refused request changes nothing. -/
def answer (request : Request) : StateM Store (Answer request) := fun store =>
  match request with
  | .inspect path => (store.inspect path, store)
  | .read path => (store.read path, store)
  | .list path => (store.list path, store)
  | .makeDirectory path => store.changed (store.makeDirectory path)
  | .createTemporary directory =>
    match store.createTemporary directory with
    | .ok (path, store) => (.ok path, store)
    | .error cause => (.error cause, store)
  | .write path bytes => store.changed (store.write path bytes)
  | .rename source target => store.changed (store.rename source target)
  | .remove path => store.changed (store.remove path)

def run {α : Type} (store : Store) (script : Script α) : α × Store :=
  (script.run answer).run store

@[simp] theorem run_done {α : Type} (store : Store) (value : α) :
    store.run (.done value) = (value, store) := rfl

@[simp] theorem run_ask {α : Type} (store : Store) (request : Request)
    (next : Answer request → Script α) :
    store.run (.ask request next) =
      ((answer request).run store).2.run (next ((answer request).run store).1) := rfl

@[simp] theorem run_bind {α β : Type} (store : Store) (script : Script α) (f : α → Script β) :
    store.run (script >>= f) = (store.run script).2.run (f (store.run script).1) := by
  induction script generalizing store with
  | done value => rfl
  | ask request next ih => simp [ih]

def perform {α : Type} (store : Store) (job : Job α) : Except Fault α × Store :=
  store.run (ExceptT.run job)

@[simp] theorem perform_pure {α : Type} (store : Store) (value : α) :
    store.perform (pure value) = (.ok value, store) := rfl

@[simp] theorem perform_fail {α : Type} (store : Store) (fault : Fault) :
    store.perform (Job.fail fault : Job α) = (.error fault, store) := rfl

@[simp] theorem perform_ofExcept {α : Type} (store : Store) (result : Except Fault α) :
    store.perform (Job.ofExcept result) = (result, store) := rfl

@[simp] theorem perform_lift {α : Type} (store : Store) (script : Script α) :
    store.perform (ExceptT.lift script) = ((.ok (store.run script).1), (store.run script).2) := by
  simp only [perform, ExceptT.run_lift, map_eq_pure_bind, run_bind]
  rfl

/-- A job goes on from the store that the one before it leaves, unless that ended with a fault. -/
theorem perform_bind {α β : Type} (store : Store) (job : Job α) (f : α → Job β) :
    store.perform (job >>= f) =
      match store.perform job with
      | (.ok value, store) => store.perform (f value)
      | (.error fault, store) => (.error fault, store) := by
  simp only [perform, ExceptT.run_bind, run_bind]
  rcases store.run job.run with ⟨_ | _, _⟩ <;> rfl

/-! ### Setting a store up -/

/-- A store with nothing in it but its home and the directories above that. -/
def fresh (home : Location) : Store :=
  ⟨home, directoriesUpTo home⟩
where
  /-- A directory at a location and at every location above it but the top. -/
  directoriesUpTo : Location → List (Location × Node)
    | [] => []
    | name :: above => (name :: above, .directory) :: directoriesUpTo above

/-- Gives a file a content, and makes the file if it is not there. -/
def install (store : Store) (path : Path) (bytes : ByteArray) : Except Cause Store := do
  match ← store.reach path with
  | .unused directory name => .ok (store.put (name :: directory) (.file (.regular bytes)))
  | .node _ | .link _ _ _ => store.write path bytes

def makeLink (store : Store) (path : Path) (target : String) : Except Cause Store := do
  let (directory, name) ← store.locateEntry path
  match store.node? (name :: directory) with
  | some _ => .error .taken
  | none => .ok (store.put (name :: directory) (.link target))

/-- Removes whatever a path names, with everything below it. -/
def removeTree (store : Store) (path : Path) : Except Cause Store := do
  let (directory, name) ← store.locateEntry path
  match store.node? (name :: directory) with
  | none => .error .missing
  | some _ => .ok { store with
      nodes := store.nodes.filter fun (location, _) => !(name :: directory).isSuffixOf location }

/-- The path of a location below the home, as seen from there. -/
def relativeText (store : Store) (location : Location) : Option String :=
  if store.home.isSuffixOf location ∧ location.length ≠ store.home.length then
    some ("/".intercalate (location.take (location.length - store.home.length)).reverse)
  else none

/-- Every path below the home and what stands there, in ascending order of the paths. -/
def listing (store : Store) : List (String × Node) :=
  (store.nodes.filterMap fun (location, node) =>
    (store.relativeText location).map fun text => (text, node)).mergeSort fun a b => a.1 ≤ b.1

end Store

end Switchboard.Disk
