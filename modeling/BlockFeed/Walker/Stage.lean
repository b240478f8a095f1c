/-!
# Stages of the walker

The walker loads its cursor, moves it over points that are cached already, and then walks with the
node; when there is nothing to walk it idles. Any stage may fail, which leads to recovery and from
there back to the beginning.
-/

namespace BlockFeed.Walker

/-- What the walker does next. -/
inductive Stage where
  /-- Load the cursor. -/
  | bootstrap
  /-- Move over cached points. -/
  | fastForward
  /-- Ask the node for the next points. -/
  | walking
  /-- Caught up; look again later. -/
  | idle
  /-- Begin again after a failure. -/
  | recovering
  deriving DecidableEq, Repr

namespace Stage

/-- The stage of a new walker. -/
instance : Inhabited Stage := ⟨.bootstrap⟩

/-- All stages. -/
def all : List Stage := [.bootstrap, .fastForward, .walking, .idle, .recovering]

/-- The name of a stage. -/
def name : Stage → String
  | .bootstrap => "bootstrap"
  | .fastForward => "fast_forward"
  | .walking => "walking"
  | .idle => "idle"
  | .recovering => "recovering"

/-- The stage with a name. -/
def ofName? (text : String) : Option Stage := all.find? (·.name = text)

/-- A stage may follow another. -/
def canFollow (next current : Stage) : Bool :=
  match current, next with
  | .recovering, .recovering => false
  | _, .recovering => true
  | .bootstrap, .fastForward => true
  | .fastForward, .walking => true
  | .walking, .idle => true
  | .idle, .walking => true
  | .recovering, .bootstrap => true
  | _, _ => false

end Stage

end BlockFeed.Walker
