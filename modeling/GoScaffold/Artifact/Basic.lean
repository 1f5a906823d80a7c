import GoScaffold.Artifact.Access
import GoScaffold.Artifact.Document
import GoScaffold.Artifact.Record
import GoScaffold.Artifact.Router
import GoScaffold.Artifact.Service
import GoScaffold.Artifact.Target

set_option autoImplicit false

/-! # Artifacts

Rendering is a function of the tables, the options and the day that banners name. -/

namespace GoScaffold

/-- The text of a target for some tables. -/
def Target.emit (t : Target) (tables : List Table) (o : Options) (today : String) : String :=
  match t with
  | .model => (Record.file tables o today).render
  | .crud => (Access.file tables o today).render
  | .router => (Router.file tables o today).render
  | .service => (Service.file tables o today).render
  | .doc => Document.text tables o today

/-- A rendered file. -/
structure Artifact where
  target : Target
  /-- The path below the output directory. -/
  path : String
  content : String
  deriving DecidableEq, Repr

/-- The artifacts that the options switch on. -/
def generate (tables : List Table) (o : Options) (today : String) : List Artifact :=
  (Target.enabled o.targets).map fun t => ⟨t, t.path o, t.emit tables o today⟩

end GoScaffold
