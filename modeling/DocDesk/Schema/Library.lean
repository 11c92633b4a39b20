import DocDesk.Nesting
import DocDesk.Schema.Metaschema.Modern
import DocDesk.Schema.Metaschema.Old
import DocDesk.Schema.Resource

/-!
# Libraries

A library knows resources by their names and the anchors inside them.  The root of a document and the
schemas of all drafts are known at once; the rest of the document is looked through for what is not known,
which fails if something else stands where a schema should.  Of two schemas with one name the first inner
one is known.

Main statement: `Library.resource?_root` (the root is found under its own name).
-/

namespace DocDesk.Schema

/-- The schema of a draft, as a resource. -/
def Draft.metaschema (d : Draft) : Resource := ⟨d, match d with
  | .draft3 => Metaschema.draft3
  | .draft4 => Metaschema.draft4
  | .draft6 => Metaschema.draft6
  | .draft7 => Metaschema.draft7
  | .draft2019 => Metaschema.draft2019
  | .draft2020 => Metaschema.draft2020⟩

/-! ## Catalogs -/

/-- Resources by their names, and anchors by the names of their resources and their own. -/
structure Catalog where
  resources : List (String × Resource)
  anchors : List ((String × String) × Anchor)

namespace Catalog

/-- The entries of two catalogs; those of the first one come first. -/
def append (a b : Catalog) : Catalog := ⟨a.resources ++ b.resources, a.anchors ++ b.anchors⟩

/-- The entries of several catalogs. -/
def ofList : List Catalog → Catalog
  | [] => ⟨[], []⟩
  | c :: cs => c.append (ofList cs)

/-- A resource under a name. -/
def single (name : String) (r : Resource) : Catalog := ⟨[(name, r)], []⟩

/-- What a resource itself adds, under the name that holds in it. -/
def own (name : String) (r : Resource) : Catalog :=
  ⟨r.name?.toList.map fun _ => (name, r),
    (r.draft.anchors r.contents).reverse.map fun (a, isDynamic) => ((name, a), ⟨r, isDynamic⟩)⟩

/-- Everything inside a resource, the entries of inner schemas before those of outer ones. -/
def inside : Nat → String → Resource → Except Failure Catalog
  | 0, _, _ => .ok ⟨[], []⟩
  | depth + 1, base, r => do
    let name := match r.name? with
      | some n => joinNames base n
      | none => base
    let schemas ← r.draft.subschemas r.contents
    let inner ← schemas.reverse.mapM fun c => inside depth name ⟨r.draft.detect c, c⟩
    return (ofList inner.reverse).append (own name r)

/-- The nesting of schemas that is looked through.  No document nests as deep as calls do, so that all of it
is. -/
def depthLimit : Nat := Nesting.callLimit

/-- What can be found inside a resource that is known at once. -/
def within (r : Resource) : Catalog :=
  match inside depthLimit (r.name?.getD "") r with
  | .ok found => found
  | .error _ => ⟨[], []⟩

/-- The schemas of all drafts, with their vocabularies, the newest first. -/
def standardResources : List Resource :=
  Metaschema.vocabularies2020.map (Resource.mk .draft2020)
    ++ Metaschema.vocabularies2019.map (Resource.mk .draft2019) ++ Draft.all.reverse.map Draft.metaschema

/-- The schemas of all drafts by their names, and what is inside them. -/
def standard : Catalog :=
  (ofList (standardResources.map fun r => single (r.name?.getD "") r)).append
    (ofList (standardResources.map within))

end Catalog

/-! ## Libraries -/

/-- What is known at once, and what is found inside the document. -/
structure Library where
  known : Catalog
  found : Except Failure Catalog

namespace Library

/-- The library of a schema and of the schemas of all drafts. -/
def ofRoot (r : Resource) : Library :=
  let name := r.name?.getD ""
  ⟨(Catalog.single name r).append .standard, Catalog.inside Catalog.depthLimit name r⟩

/-- Looks something up in what is known, and then in what is found. -/
def search (l : Library) (look : Catalog → Option α) : Except Failure (Option α) :=
  match look l.known with
  | some a => .ok (some a)
  | none => l.found.map look

/-- The resource of a name. -/
def resource? (l : Library) (name : String) : Except Failure (Option Resource) :=
  l.search fun c => c.resources.lookup name

/-- The anchor of a name in a resource, which may be known under two names. -/
def anchor? (l : Library) (resource name : String) : Except Failure (Option Anchor) := do
  match ← l.search fun c => c.anchors.lookup (resource, name) with
  | some a => return some a
  | none =>
    match (← l.resource? resource).bind Resource.name? with
    | some n => l.search fun c => c.anchors.lookup (n, name)
    | none => return none

/-- The root is found under its own name. -/
theorem resource?_root (r : Resource) :
    (ofRoot r).resource? (r.name?.getD "") = .ok (some r) := by
  simp [ofRoot, resource?, search, Catalog.append, Catalog.single]

end Library

end DocDesk.Schema
