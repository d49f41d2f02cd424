import DbRoute.Fault

/-!
# Transforms

A URL may name a transform, which changes the properties of the URL before
configurations and overrides come in. Transforms are registered by name, one
under each; registering a name again replaces its transform.

The edits are the transforms that can be written down: a list of them runs in
order, up to the first one that fails.
-/

namespace DbRoute

abbrev Transform := Properties → Except String Properties

namespace Transform

inductive Edit where
  | set (key value : String)
  | remove (key : String)
  /-- Writes the value of one key to another, if there is one. -/
  | copy (source target : String)
  | clear
  | fail (reason : String)

def Edit.run : Edit → Transform
  | set key value, p => .ok (p.set key value)
  | remove key, p => .ok (p.erase key)
  | copy source target, p =>
      .ok (match p.get? source with
        | some value => p.set target value
        | none => p)
  | clear, _ => .ok ∅
  | fail reason, _ => .error reason

def ofEdits (edits : List Edit) : Transform := fun p =>
  edits.foldlM (fun p edit => edit.run p) p

end Transform

/-- Transforms by name, the newest first. -/
structure Registry where
  transforms : List (String × Transform) := []

namespace Registry

def register (r : Registry) (name : String) (transform : Transform) : Registry :=
  ⟨(name, transform) :: r.transforms.filter (·.1 != name)⟩

def find? (r : Registry) (name : String) : Option Transform :=
  r.transforms.lookup name

def contains (r : Registry) (name : String) : Bool :=
  (r.find? name).isSome

/-- The names in the order of their characters. -/
def names (r : Registry) : List String :=
  (r.transforms.map (·.1)).mergeSort fun a b => a ≤ b

/-- Runs the transform of the given name. -/
def apply (r : Registry) (name : String) (p : Properties) : Except Fault Properties :=
  match r.find? name with
  | none => .error (.unknownTransform name)
  | some transform => (transform p).mapError (.transformFailed name)

end Registry

end DbRoute
