import Switchboard.Fault

/-!
Scripts: programs that talk to a file system. A script asks one request after the other, and each
answer decides what is asked next. Who answers is left open: a `Store` answers from its own state,
which makes a script a function that can be reasoned about, and the command line answers from the
real file system.
-/

namespace Switchboard.Disk

inductive Kind
  | file
  | directory
  | link
  /-- A device, a pipe or a socket. -/
  | special
deriving DecidableEq, Repr

inductive Request
  /-- What a path leads to, through links. -/
  | inspect (path : Path)
  | read (path : Path)
  /-- The names in a directory and what stands under them, links not followed. -/
  | list (path : Path)
  | makeDirectory (path : Path)
  /-- A new empty file in a directory, under a name that is not in use. -/
  | createTemporary (directory : Path)
  /-- Gives a file that exists a new content. -/
  | write (path : Path) (bytes : ByteArray)
  /-- Moves a file to a name, in place of a file or link that has it. -/
  | rename (source target : Path)
  | remove (path : Path)

abbrev Request.Reply : Request → Type
  | inspect _ => Kind
  | read _ => ByteArray
  | list _ => List (String × Kind)
  | createTemporary _ => Path
  | makeDirectory _ | write _ _ | rename _ _ | remove _ => Unit

abbrev Answer (request : Request) : Type :=
  Except Cause request.Reply

/-- A program that asks requests and has a result. -/
inductive Script (α : Type)
  | done (value : α)
  | ask (request : Request) (next : Answer request → Script α)

namespace Script

variable {α β : Type}

def bind : Script α → (α → Script β) → Script β
  | done value, f => f value
  | ask request next, f => ask request fun answer => (next answer).bind f

instance : Monad Script where
  pure := done
  bind := bind

@[simp] theorem pure_eq (value : α) : (pure value : Script α) = done value := rfl

@[simp] theorem done_bind (value : α) (f : α → Script β) : done value >>= f = f value := rfl

@[simp] theorem ask_bind (request : Request) (next : Answer request → Script α)
    (f : α → Script β) :
    ask request next >>= f = ask request fun answer => next answer >>= f := rfl

theorem bind_done (script : Script α) : script.bind done = script := by
  induction script with
  | done value => rfl
  | ask request next ih => exact congrArg (ask request) (funext ih)

theorem bind_assoc {γ : Type} (script : Script α) (f : α → Script β) (g : β → Script γ) :
    (script.bind f).bind g = script.bind fun value => (f value).bind g := by
  induction script with
  | done value => rfl
  | ask request next ih => exact congrArg (ask request) (funext ih)

instance : LawfulMonad Script :=
  LawfulMonad.mk' Script bind_done (fun _ _ => rfl) bind_assoc

def request (request : Request) : Script (Answer request) :=
  ask request done

/-- Runs a script with the help of someone who answers. -/
def run {m : Type → Type} [Monad m] (answer : (request : Request) → m (Answer request)) :
    Script α → m α
  | done value => pure value
  | ask request next => answer request >>= fun reply => run answer (next reply)

end Script

abbrev Job : Type → Type :=
  ExceptT Fault Script

namespace Job

variable {α : Type}

def fail (fault : Fault) : Job α :=
  throw fault

/-- The result of a script that may be refused; the fault tells what the request was for. -/
def attempt (action : Action) (path : Path) (script : Script (Except Cause α)) : Job α := do
  match ← ExceptT.lift script with
  | .ok value => return value
  | .error cause => fail (.disk action path cause)

/-- A computation that needs no file system. -/
def ofExcept (result : Except Fault α) : Job α :=
  ExceptT.mk (Script.done result)

end Job

end Switchboard.Disk
